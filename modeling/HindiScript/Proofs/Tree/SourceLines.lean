import HindiScript.Proofs.Token.Tiling
import HindiScript.Proofs.Tree.Shape

/-!
# The lines of what was read

Every node takes its line from a token: some from the first token of what they are read from, some from an operator in
the middle, some from the last name. Still the lines are in order (`sourced_parse`): the lines of the tokens of a text
never fall, a statement takes the line of its first token, and all nodes inside it take lines of tokens that are not
before that one.
-/

namespace HindiScript

/-! ## Lines in order -/

/-- Both nodes carry lines, and `a` is not behind `b`. -/
def Node.Precedes (a b : Node) : Prop := ∃ i ∈ a.line, ∃ j ∈ b.line, i ≤ j

/-- Every node below `e` carries the line of one of `tokens`. The statements of a program or a block stand in order,
and no statement stands behind a node inside it. -/
structure Node.Sourced (tokens : List Token) (e : Node) : Prop where
  lines : ∀ n ∈ e.descendants, ∃ tok ∈ tokens, n.line = some (tok.line : Int)
  bodies : ∀ n ∈ e :: e.descendants, n.body.Pairwise Precedes
  first : ∀ n ∈ e :: e.descendants, n.isStatement = true → ∀ m ∈ n.descendants, n.Precedes m

def LineIn (ts : List Token) (line : Option Int) : Prop := ∃ tok ∈ ts, line = some (tok.line : Int)

/-- `e` and all nodes below it take their lines from `ts`, in order. -/
structure Drawn (ts : List Token) (e : Node) : Prop extends e.Sourced ts where
  line : LineIn ts e.line

/-- `e` is `Drawn` if it is there. -/
def MayBeDrawn (ts : List Token) (e : Node) : Prop := e.isMissing = false → Drawn ts e

/-- The statements of `body` are `Drawn`, and stand in order. -/
structure DrawnBody (ts : List Token) (body : List Node) : Prop where
  drawn : ∀ s ∈ body, Drawn ts s
  pairwise : body.Pairwise Node.Precedes

/-- The lines of `ts` never fall. -/
def Ascending (ts : List Token) : Prop := ts.Pairwise fun t t' => t.line ≤ t'.line

theorem Ascending.head_le {tok t : Token} {rest : List Token} (h : Ascending (tok :: rest)) (ht : t ∈ tok :: rest) :
    tok.line ≤ t.line := by
  rcases List.mem_cons.1 ht with rfl | ht
  · exact Nat.le_refl _
  · exact (List.pairwise_cons.1 h).1 t ht

theorem Ascending.suffix {ts base : List Token} (h : Ascending base) (hs : ts <:+ base) : Ascending ts :=
  List.Pairwise.sublist hs.sublist h

section

variable {ts base rest : List Token} {tok : Token} {e : Node}

theorem lineIn_head (hs : tok :: rest <:+ base) : LineIn base (some (tok.line : Int)) :=
  ⟨tok, hs.subset List.mem_cons_self, rfl⟩

theorem MayBeDrawn.missing : MayBeDrawn ts .missing := nofun

theorem Drawn.mayBe (h : Drawn ts e) : MayBeDrawn ts e := fun _ => h

theorem Drawn.mono (h : Drawn ts e) (hs : ts <:+ base) : Drawn base e := by
  obtain ⟨⟨hlines, hbodies, hfirst⟩, tok, ht, hline⟩ := h
  refine ⟨⟨fun n hn => ?_, hbodies, hfirst⟩, tok, hs.subset ht, hline⟩
  obtain ⟨tok, ht, hline⟩ := hlines n hn
  exact ⟨tok, hs.subset ht, hline⟩

theorem Drawn.lines_cons (h : Drawn ts e) {n : Node} (hn : n ∈ e :: e.descendants) :
    ∃ tok ∈ ts, n.line = some (tok.line : Int) := by
  rcases List.mem_cons.1 hn with rfl | hn
  · exact h.line
  · exact h.lines n hn

/-- A node over drawn parts is in order if its own statements are and if, should it be a statement itself, no token is
before its line. -/
theorem Node.Sourced.of_parts (parts : List Node) (hparts : e.children = children.present parts)
    (h : ∀ p ∈ parts, MayBeDrawn ts p) (hbody : e.body.Pairwise Precedes)
    (hfirst : e.isStatement = true → ∃ i ∈ e.line, ∀ tok ∈ ts, i ≤ tok.line) : e.Sourced ts := by
  have hbelow : ∀ n ∈ e.descendants, ∃ c, Drawn ts c ∧ n ∈ c :: c.descendants := by
    intro n hn
    rw [descendants_eq, hparts] at hn
    obtain ⟨c, hc, hn⟩ := List.mem_flatMap.1 hn
    obtain ⟨hc, hm⟩ := mem_present.1 hc
    exact ⟨c, h c hc hm, hn⟩
  refine ⟨fun n hn => ?_, fun n hn => ?_, fun n hn hs m hm => ?_⟩
  · obtain ⟨c, hc, hn⟩ := hbelow n hn
    exact hc.lines_cons hn
  · rcases List.mem_cons.1 hn with rfl | hn
    · exact hbody
    · obtain ⟨c, hc, hn⟩ := hbelow n hn
      exact hc.bodies n hn
  · rcases List.mem_cons.1 hn with rfl | hn
    · obtain ⟨c, hc, hm⟩ := hbelow m hm
      obtain ⟨tok, ht, hline⟩ := hc.lines_cons hm
      obtain ⟨i, hi, hle⟩ := hfirst hs
      exact ⟨i, hi, _, hline, hle tok ht⟩
    · obtain ⟨c, hc, hn⟩ := hbelow n hn
      exact hc.first n hn hs m hm

/-- An expression takes its line from any token. -/
theorem Drawn.of_expr (parts : List Node) (he : e.isExpression = true)
    (hparts : e.children = Node.children.present parts) (hline : LineIn ts e.line)
    (h : ∀ p ∈ parts, MayBeDrawn ts p) : Drawn ts e := by
  have hkind : e.isStatement = false ∧ e.body = [] := by
    cases e <;> first | exact ⟨rfl, rfl⟩ | cases he
  refine ⟨.of_parts parts hparts h (hkind.2 ▸ .nil) fun hs => ?_, hline⟩
  rw [hkind.1] at hs
  cases hs

theorem Drawn.of_leaf (he : e.isExpression = true) (hchildren : e.children = []) (hline : LineIn ts e.line) :
    Drawn ts e :=
  .of_expr [] he hchildren hline (List.forall_mem_nil _)

/-- A statement takes its line from the first token. -/
structure Leads (ts : List Token) (e : Node) : Prop where
  drawn : Drawn ts e
  line : ∃ tok ∈ ts.head?, e.line = some (tok.line : Int)

theorem Leads.of_parts (parts : List Node) (hs : Ascending (tok :: rest)) (hline : e.line = some (tok.line : Int))
    (hparts : e.children = Node.children.present parts) (hbody : e.body.Pairwise Node.Precedes)
    (h : ∀ p ∈ parts, MayBeDrawn (tok :: rest) p) : Leads (tok :: rest) e := by
  have hfirst : ∀ t ∈ tok :: rest, (tok.line : Int) ≤ t.line := fun t ht => Int.ofNat_le.2 (hs.head_le ht)
  refine ⟨⟨.of_parts parts hparts h hbody fun _ => ⟨_, hline, hfirst⟩, tok, List.mem_cons_self, hline⟩, tok, rfl, hline⟩

theorem Leads.of_leaf (hs : Ascending (tok :: rest)) (hline : e.line = some (tok.line : Int))
    (hchildren : e.children = []) (hbody : e.body = []) : Leads (tok :: rest) e :=
  .of_parts [] hs hline hchildren (hbody ▸ .nil) (List.forall_mem_nil _)

theorem Leads.precedes {e' : Node} (h : Leads ts e) (hs : Ascending ts) (h' : Drawn ts e') : e.Precedes e' := by
  obtain ⟨tok, htok, hline⟩ := h.line
  obtain ⟨rest, rfl⟩ := List.head?_eq_some_iff.1 htok
  obtain ⟨t, ht, hline'⟩ := h'.line
  exact ⟨_, hline, _, hline', Int.ofNat_le.2 (hs.head_le ht)⟩

end

/-! ## What readers draw -/

namespace Parse

variable {α β : Type} {base : List Token} {p : Parse α} {P Q : α → Prop} {R : β → Prop}

/-- From any end of `base` the reader `p` gives a value with `P`, and leaves an end of `base`. -/
def Draws (base : List Token) (p : Parse α) (P : α → Prop) : Prop :=
  ∀ ts, ts <:+ base → P (p ts).1 ∧ (p ts).2 <:+ base

namespace Draws

theorem pure {a : α} (h : P a) : Draws base (Pure.pure a) P := fun _ hts => ⟨h, hts⟩

theorem bind {f : α → Parse β} (hp : Draws base p P) (hf : ∀ a, P a → Draws base (f a) R) : Draws base (p >>= f) R := by
  intro ts hts
  obtain ⟨hvalue, hrest⟩ := hp ts hts
  exact hf _ hvalue _ hrest

theorem mono (hp : Draws base p P) (h : ∀ a, P a → Q a) : Draws base p Q :=
  fun ts hts => (hp ts hts).imp_left (h _)

theorem after {f : α → Parse β} (hp : Shrinks p) (hf : ∀ a, Draws base (f a) R) : Draws base (p >>= f) R :=
  fun ts hts => hf _ _ ((hp ts).trans hts)

/-- A token that was seen is there to take the line from. -/
theorem seen {l : Lexeme} {f : Option Int → Parse α} (hf : ∀ line, LineIn base line → Draws base (f line) P)
    (hp : Draws base p P) : Draws base (sees l >>= fun there => if there then takeLine >>= f else p) P := by
  intro ts hts
  cases ts with
  | nil => exact hp [] hts
  | cons tok rest =>
    rw [bind_apply, sees_cons]
    split
    · exact hf _ (lineIn_head hts) rest ((List.suffix_cons tok rest).trans hts)
    · exact hp _ hts

end Draws

/-- From tokens whose lines never fall `p` gives a statement on the line of the first one, if it gives any. -/
def Opens (p : Parse Node) : Prop :=
  ∀ tok rest, Ascending (tok :: rest) → (p (tok :: rest)).1.isMissing = false → Leads (tok :: rest) (p (tok :: rest)).1

namespace Opens

variable {p : Parse Node}

theorem takeLine {f : Option Int → Parse Node}
    (hf : ∀ tok rest, Ascending (tok :: rest) → Draws (tok :: rest) (f (some (tok.line : Int))) (Leads (tok :: rest))) :
    Opens (takeLine >>= f) :=
  fun tok rest hs _ => (hf tok rest hs rest (List.suffix_cons tok rest)).1

theorem missing : Opens (pure .missing) := fun _ _ _ hm => by cases hm

theorem look {q : Parse α} {f : α → Parse Node} (hq : ∀ ts, (q ts).2 = ts) (hf : ∀ a, Opens (f a)) :
    Opens (q >>= f) := by
  intro tok rest hs hm
  rw [bind_apply, hq] at hm ⊢
  exact hf _ tok rest hs hm

/-- What a reader that `Opens` gives is drawn from all tokens around those that it was given. -/
theorem draws (h : Opens p) (hp : Shrinks p) (hb : Ascending base) {tok : Token} {rest : List Token}
    (hts : tok :: rest <:+ base) : MayBeDrawn base (p (tok :: rest)).1 ∧ (p (tok :: rest)).2 <:+ base :=
  ⟨fun hm => (h tok rest (hb.suffix hts) hm).drawn.mono hts, (hp _).trans hts⟩

end Opens

end Parse

/-! ## Rules -/

/-- What the rules need of the readers for the inner parts: their nodes take lines from the tokens, in order. -/
structure Inner.DrawsLines (inner : Inner) : Prop where
  sound : inner.Sound
  statements (untilBrace : Bool) {base : List Token} (hb : Ascending base) :
    Parse.Draws base (inner.statements untilBrace) (DrawnBody base)
  expr {base : List Token} (hb : Ascending base) : Parse.Draws base inner.expr (MayBeDrawn base)
  operand (floor : Int) {base : List Token} (hb : Ascending base) :
    Parse.Draws base (inner.operand floor) (MayBeDrawn base)
  operators (floor : Int) {left : Node} {base : List Token} (hb : Ascending base) (hl : Drawn base left) :
    Parse.Draws base (inner.operators floor left) (Drawn base)
  arguments {base : List Token} (hb : Ascending base) :
    Parse.Draws base inner.arguments fun args => ∀ a ∈ args, Drawn base a
  chain {head : Node} {base : List Token} (hb : Ascending base) (hh : Drawn base head) :
    Parse.Draws base (inner.chain head) (Drawn base)
  alternative {base : List Token} (hb : Ascending base) : Parse.Draws base inner.alternative (MayBeDrawn base)

namespace Grammar

open Parse

variable {inner : Inner} {base : List Token}

/-! ### Expressions -/

theorem opens_block (h : inner.DrawsLines) : Opens (block inner) := by
  refine .look (fun _ => rfl) fun brace => ?_
  split
  · refine .takeLine fun tok rest hs => (h.statements true hs).bind fun body hbody => .after (shrinks_accept _) fun _ =>
      .pure ?_
    exact .of_parts body hs rfl rfl hbody.pairwise fun s hs => (hbody.drawn s hs).mayBe
  · exact .missing

theorem draws_block (h : inner.DrawsLines) (hb : Ascending base) : Draws base (block inner) (MayBeDrawn base) := by
  intro ts hts
  cases ts with
  | nil => exact ⟨.missing, hts⟩
  | cons tok rest => exact (opens_block h).draws (takesOrLeaves_block h.sound).shrinks hb hts

theorem draws_arrowFunction (h : inner.DrawsLines) (hb : Ascending base) {line : Option Int}
    (hline : LineIn base line) (isAsync : Bool) :
    Draws base (arrowFunction inner line isAsync) (MayBeDrawn base) := by
  refine .after shrinks_params fun names => .after (shrinks_accept _) fun arrow => ?_
  split
  · have hbody : Draws base (arrowBody inner) (MayBeDrawn base) := by
      refine .after (shrinks_sees _) fun brace => ?_
      split
      · exact draws_block h hb
      · exact h.expr hb
    refine hbody.bind fun body hbody => .pure (Drawn.mayBe ?_)
    exact .of_expr [body] rfl rfl hline (List.forall_mem_singleton.2 hbody)
  · exact .pure .missing

/-- A call is drawn if what is called and its arguments are. -/
theorem drawn_call {line : Option Int} {callee : Node} {args : List Node}
    (hline : LineIn base line) (hc : Drawn base callee) (ha : ∀ a ∈ args, Drawn base a) :
    Drawn base (.call line callee (some args)) :=
  .of_expr (callee :: args) rfl rfl hline (List.forall_mem_cons.2 ⟨hc.mayBe, fun a h => (ha a h).mayBe⟩)

theorem draws_fetchCall (h : inner.DrawsLines) (hb : Ascending base) {tok : Token} {rest : List Token}
    (hts : tok :: rest <:+ base) :
    Drawn base (fetchCall inner (tok :: rest)).1 ∧ (fetchCall inner (tok :: rest)).2 <:+ base := by
  have htok := lineIn_head hts
  have hname : Drawn base (.ident (some (tok.line : Int)) fetchName) := .of_leaf rfl rfl htok
  have hread : Draws base (accept (.punct .parenOpen) >>= fun opened =>
      if opened then inner.arguments >>= fun args =>
        pure (Node.call (some (tok.line : Int)) (.ident (some (tok.line : Int)) fetchName) (some args))
      else inner.expr >>= fun arg =>
        pure (Node.call (some (tok.line : Int)) (.ident (some (tok.line : Int)) fetchName)
          (some (if arg.isMissing then [] else [arg])))) (Drawn base) := by
    refine .after (shrinks_accept _) fun opened => ?_
    split
    · exact (h.arguments hb).bind fun args hargs => .pure (drawn_call htok hname hargs)
    · refine (h.expr hb).bind fun arg harg => .pure (drawn_call htok hname ?_)
      split
      · exact List.forall_mem_nil _
      · next hm => exact List.forall_mem_singleton.2 (harg (by simpa using hm))
  exact hread rest ((List.suffix_cons tok rest).trans hts)

theorem draws_chain (h : inner.DrawsLines) (hb : Ascending base) {head : Node} (hh : Drawn base head) :
    Draws base (chain inner head) (Drawn base) := by
  intro ts hts
  cases ts with
  | nil => exact ⟨hh, hts⟩
  | cons tok rest =>
    have hrest := (List.suffix_cons tok rest).trans hts
    simp only [chain]
    split
    · exact ((h.arguments hb).bind fun args hargs => h.chain hb (drawn_call (lineIn_head hts) hh hargs)) rest hrest
    · split
      · exact ⟨hh, hts⟩
      · rename_i property rest'
        split
        · next name _ =>
          have hname : Drawn base (.ident (some (property.line : Int)) name) :=
            .of_leaf rfl rfl (lineIn_head hrest)
          refine h.chain hb ?_ rest' ((List.suffix_cons property rest').trans hrest)
          exact .of_expr [head, .ident (some (property.line : Int)) name] rfl rfl (lineIn_head hrest)
            (List.forall_mem_cons.2 ⟨hh.mayBe, List.forall_mem_singleton.2 hname.mayBe⟩)
        · exact ⟨hh, hts⟩
    · exact ⟨hh, hts⟩

theorem draws_parenthesized (h : inner.DrawsLines) (hb : Ascending base) {line : Option Int}
    (hline : LineIn base line) :
    Draws base (parenthesized inner line) (MayBeDrawn base) := by
  refine .after (fun _ => List.suffix_rfl) fun ahead => ?_
  split
  · exact draws_arrowFunction h hb hline false
  · exact .after shrinks_takeLine fun _ => (h.expr hb).bind fun _ hvalue =>
      .after (shrinks_accept _) fun _ => .pure hvalue

theorem draws_primary (h : inner.DrawsLines) (hb : Ascending base) :
    Draws base (primary inner) (MayBeDrawn base) := by
  intro ts hts
  rcases ts with _ | ⟨⟨l, line, column⟩, rest⟩
  · exact ⟨.missing, hts⟩
  have hrest := (List.suffix_cons _ rest).trans hts
  have hline : LineIn base (some (line : Int)) := lineIn_head hts
  cases l with
  | number value => exact ⟨Drawn.mayBe (.of_leaf rfl rfl hline), hrest⟩
  | string text => exact ⟨Drawn.mayBe (.of_leaf rfl rfl hline), hrest⟩
  | ident name =>
    have hhead : Drawn base (.ident (some (line : Int)) name) := .of_leaf rfl rfl hline
    exact ((draws_chain h hb hhead).mono fun _ he => he.mayBe) rest hrest
  | punct mark =>
    cases mark with
    | parenOpen => exact draws_parenthesized h hb hline _ hts
    | _ => exact ⟨.missing, hts⟩
  | keyword word =>
    cases word with
    | lao => exact (draws_fetchCall h hb hts).imp_left fun he => he.mayBe
    | aasynk =>
      by_cases hp : rest.head?.map (·.lexeme) = some (.punct .parenOpen)
      · simp only [primary, bind_apply, get_apply, hp, if_true]
        exact draws_arrowFunction h hb hline true rest hrest
      · simp only [primary, bind_apply, get_apply, hp, if_false, pure_apply]
        exact ⟨.missing, hts⟩
    | _ => exact ⟨.missing, hts⟩
  | _ => exact ⟨.missing, hts⟩

theorem draws_unary (h : inner.DrawsLines) (hb : Ascending base) : Draws base (unary inner) (MayBeDrawn base) := by
  refine .seen (fun line hline => ?_) (draws_primary h hb)
  refine (h.operand _ hb).bind fun value hvalue => .pure (Drawn.mayBe ?_)
  exact .of_expr [value] rfl rfl hline (List.forall_mem_singleton.2 hvalue)

theorem draws_operators (h : inner.DrawsLines) (hb : Ascending base) (floor : Int) {left : Node}
    (hl : Drawn base left) : Draws base (operators inner floor left) (Drawn base) := by
  intro ts hts
  cases ts with
  | nil => exact ⟨hl, hts⟩
  | cons tok rest =>
    simp only [operators]
    split
    · split
      · exact ⟨hl, hts⟩
      · refine ((h.operand _ hb).bind fun right hright => h.operators floor hb ?_) rest
          ((List.suffix_cons tok rest).trans hts)
        exact .of_expr [left, right] rfl rfl (lineIn_head hts)
          (List.forall_mem_cons.2 ⟨hl.mayBe, List.forall_mem_singleton.2 hright⟩)
    · exact ⟨hl, hts⟩

theorem draws_operand (h : inner.DrawsLines) (hb : Ascending base) (floor : Int) :
    Draws base (operand inner floor) (MayBeDrawn base) := by
  refine (draws_unary h hb).bind fun left hl => ?_
  split
  · exact .pure .missing
  · next hm => exact (draws_operators h hb floor (hl (by simpa using hm))).mono fun _ he => he.mayBe

theorem draws_expr (h : inner.DrawsLines) (hb : Ascending base) : Draws base (expr inner) (MayBeDrawn base) := by
  refine (draws_operand h hb 0).bind fun left hl => ?_
  split
  · exact .pure .missing
  · refine .seen (fun line hline => (h.expr hb).bind fun value hvalue => .pure (Drawn.mayBe ?_)) (.pure hl)
    exact .of_expr [left, value] rfl rfl hline (List.forall_mem_cons.2 ⟨hl, List.forall_mem_singleton.2 hvalue⟩)

theorem draws_arguments (h : inner.DrawsLines) (hb : Ascending base) :
    Draws base (arguments inner) fun args => ∀ a ∈ args, Drawn base a := by
  refine .after shrinks_front? fun front => ?_
  split
  · exact .pure (List.forall_mem_nil _)
  · exact .after (shrinks_accept _) fun _ => .pure (List.forall_mem_nil _)
  · refine (draws_expr h hb).bind fun arg harg => .after (shrinks_accept _) fun comma => ?_
    split
    · split
      · exact h.arguments hb
      · exact .after (shrinks_accept _) fun _ => .pure (List.forall_mem_nil _)
    · next hm =>
      exact (h.arguments hb).bind fun more hmore => .pure (List.forall_mem_cons.2 ⟨harg (by simpa using hm), hmore⟩)

/-! ### Statements -/

theorem opens_declaration (h : inner.DrawsLines) : Opens (declaration inner) := by
  refine .look (fun _ => rfl) fun isConstant => .takeLine fun tok rest hs => .after shrinks_takeName fun name => ?_
  have hvalue : Draws (tok :: rest) (initializer inner) (MayBeDrawn (tok :: rest)) := by
    refine .after (shrinks_accept _) fun equals => ?_
    split
    · exact h.expr hs
    · exact .pure .missing
  refine hvalue.bind fun value hvalue => .pure ?_
  exact .of_parts [value] hs rfl rfl .nil (List.forall_mem_singleton.2 hvalue)

theorem opens_variableStatement (h : inner.DrawsLines) : Opens (variableStatement inner) := opens_declaration h

theorem opens_printStatement (h : inner.DrawsLines) : Opens (printStatement inner) := by
  refine .takeLine fun tok rest hs => (h.expr hs).bind fun value hvalue =>
    .after shrinks_skipSemicolon fun _ => .pure ?_
  exact .of_parts [value] hs rfl rfl .nil (List.forall_mem_singleton.2 hvalue)

theorem opens_ifStatement (h : inner.DrawsLines) : Opens (ifStatement inner) := by
  refine .takeLine fun tok rest hs => (h.expr hs).bind fun test htest =>
    (draws_block h hs).bind fun consequent hconsequent => (h.alternative hs).bind fun alternate halternate => .pure ?_
  exact .of_parts [test, consequent, alternate] hs rfl rfl .nil (by simp [htest, hconsequent, halternate])

theorem draws_alternative (h : inner.DrawsLines) (hb : Ascending base) :
    Draws base (alternative inner) (MayBeDrawn base) := by
  intro ts hts
  cases ts with
  | nil => exact ⟨.missing, hts⟩
  | cons tok rest =>
    have hfurther := (opens_ifStatement h).draws (takes_ifStatement h.sound).shrinks hb hts
    have hlast : Draws base (takeLine >>= fun _ => block inner) (MayBeDrawn base) :=
      .after shrinks_takeLine fun _ => draws_block h hb
    simp only [alternative, bind_apply, front?_cons]
    generalize some tok.lexeme = front
    split
    · exact hfurther
    · exact hlast _ hts
    · exact ⟨.missing, hts⟩

theorem opens_whileStatement (h : inner.DrawsLines) : Opens (whileStatement inner) := by
  refine .takeLine fun tok rest hs => (h.expr hs).bind fun test htest =>
    (draws_block h hs).bind fun body hbody => .pure ?_
  exact .of_parts [test, body] hs rfl rfl .nil (by simp [htest, hbody])

theorem draws_loopStart (h : inner.DrawsLines) (hb : Ascending base) :
    Draws base (loopStart inner) (MayBeDrawn base) := by
  intro ts hts
  cases ts with
  | nil => exact h.expr hb [] hts
  | cons tok rest =>
    have hdeclaration := (opens_declaration h).draws (takes_declaration h.sound).shrinks hb hts
    simp only [loopStart, bind_apply, front?_cons]
    generalize some tok.lexeme = front
    split
    · exact hdeclaration
    · exact hdeclaration
    · exact ⟨.missing, hts⟩
    · exact h.expr hb _ hts

theorem draws_loopPart (h : inner.DrawsLines) (hb : Ascending base) (stop : Punct) :
    Draws base (loopPart inner stop) (MayBeDrawn base) := by
  refine .after (shrinks_sees _) fun stopped => ?_
  split
  · exact .pure .missing
  · exact h.expr hb

theorem opens_forStatement (h : inner.DrawsLines) : Opens (forStatement inner) := by
  refine .takeLine fun tok rest hs => .after (shrinks_accept _) fun opened => ?_
  split
  · refine (draws_loopStart h hs).bind fun init hinit => .after shrinks_skipSemicolon fun _ =>
      (draws_loopPart h hs _).bind fun test htest => .after shrinks_skipSemicolon fun _ =>
      (draws_loopPart h hs _).bind fun update hupdate => .after (shrinks_accept _) fun _ =>
      (draws_block h hs).bind fun body hbody => .pure ?_
    exact .of_parts [init, test, update, body] hs rfl rfl .nil (by simp [hinit, htest, hupdate, hbody])
  · refine (draws_block h hs).bind fun body hbody => .pure ?_
    exact .of_parts [body] hs rfl rfl .nil (List.forall_mem_singleton.2 hbody)

theorem opens_returnStatement (h : inner.DrawsLines) : Opens (returnStatement inner) := by
  refine .takeLine fun tok rest hs => (h.expr hs).bind fun value hvalue =>
    .after shrinks_skipSemicolon fun _ => .pure ?_
  exact .of_parts [value] hs rfl rfl .nil (List.forall_mem_singleton.2 hvalue)

theorem opens_breakStatement : Opens breakStatement :=
  .takeLine fun _ _ hs => .after shrinks_skipSemicolon fun _ => .pure (.of_leaf hs rfl rfl rfl)

theorem opens_continueStatement : Opens continueStatement :=
  .takeLine fun _ _ hs => .after shrinks_skipSemicolon fun _ => .pure (.of_leaf hs rfl rfl rfl)

theorem opens_functionDeclaration (h : inner.DrawsLines) : Opens (functionDeclaration inner) := by
  intro tok rest hs _
  have hread (isAsync : Bool) : Draws (tok :: rest) (accept (.keyword .karya) >>= fun _ => takeName >>= fun name =>
      params >>= fun names => block inner >>= fun body =>
      pure (.functionDecl (some (tok.line : Int)) name (some names) body isAsync)) (Leads (tok :: rest)) := by
    refine .after (shrinks_accept _) fun _ => .after shrinks_takeName fun _ => .after shrinks_params fun _ =>
      (draws_block h hs).bind fun body hbody => .pure ?_
    exact .of_parts [body] hs rfl rfl .nil (List.forall_mem_singleton.2 hbody)
  exact (Draws.after (shrinks_accept _) hread (tok :: rest) List.suffix_rfl).1

theorem opens_importStatement : Opens importStatement := by
  refine .takeLine fun tok rest hs => .after (shrinks_accept _) fun braced => ?_
  split
  · exact .after shrinks_importNames fun _ => .after (shrinks_accept _) fun _ => .after (shrinks_accept _) fun _ =>
      .after shrinks_takeString fun _ => .after shrinks_skipSemicolon fun _ => .pure (.of_leaf hs rfl rfl rfl)
  · exact .after shrinks_takeString fun _ => .after shrinks_skipSemicolon fun _ =>
      .pure (.of_leaf hs rfl rfl rfl)

theorem opens_exportStatement (h : inner.DrawsLines) : Opens (exportStatement inner) := by
  refine .takeLine fun tok rest hs ts hts => ?_
  have hnothing (names : Option (List String)) :
      Leads (tok :: rest) (.exportDecl (some (tok.line : Int)) .missing names) :=
    .of_leaf hs rfl rfl rfl
  cases ts with
  | nil => exact ⟨hnothing none, hts⟩
  | cons tok' rest' =>
    have hexport {e : Node} (he : MayBeDrawn (tok :: rest) e) :
        Leads (tok :: rest) (.exportDecl (some (tok.line : Int)) e none) :=
      .of_parts [e] hs rfl rfl .nil (List.forall_mem_singleton.2 he)
    have hvariable := (opens_variableStatement h).draws (takes_variableStatement h.sound).shrinks hs hts
    have hfunction := (opens_functionDeclaration h).draws (shrinks_functionDeclaration h.sound) hs hts
    simp only [bind_apply, front?_cons]
    generalize some tok'.lexeme = front
    split
    · exact ⟨hexport hvariable.1, hvariable.2⟩
    · exact ⟨hexport hvariable.1, hvariable.2⟩
    · exact ⟨hexport hfunction.1, hfunction.2⟩
    · exact ⟨hexport hfunction.1, hfunction.2⟩
    · exact ⟨hnothing _, ((shrinks_skipSemicolon _).trans (List.suffix_cons tok' rest')).trans hts⟩
    · exact ⟨hnothing none, hts⟩

theorem opens_expressionStatement (h : inner.DrawsLines) : Opens (expressionStatement inner) := by
  intro tok rest hs
  have hread : Draws (tok :: rest) (expr inner >>= fun value => skipSemicolon >>= fun _ =>
      pure (if value.isMissing then .missing else .exprStmt (some (tok.line : Int)) value))
      fun e => e.isMissing = false → Leads (tok :: rest) e := by
    refine (draws_expr h hs).bind fun value hvalue => .after shrinks_skipSemicolon fun _ => .pure ?_
    split
    · exact nofun
    · exact fun _ => .of_parts [value] hs rfl rfl .nil (List.forall_mem_singleton.2 hvalue)
  exact (hread (tok :: rest) List.suffix_rfl).1

theorem opens_statement (h : inner.DrawsLines) : Opens (statement inner) := by
  rintro ⟨l, line, column⟩ rest hs
  have hexpr := opens_expressionStatement h ⟨l, line, column⟩ rest hs
  have hfunction := opens_functionDeclaration h ⟨l, line, column⟩ rest hs
  cases l with
  | keyword word =>
    cases word with
    | ye | sthayi => exact opens_variableStatement h _ rest hs
    | bol => exact opens_printStatement h _ rest hs
    | agar => exact opens_ifStatement h _ rest hs
    | lagataar => exact opens_whileStatement h _ rest hs
    | jabtak => exact opens_forStatement h _ rest hs
    | wapas => exact opens_returnStatement h _ rest hs
    | ruk => exact opens_breakStatement _ rest hs
    | chhod => exact opens_continueStatement _ rest hs
    | karya => exact hfunction
    | aayaat => exact opens_importStatement _ rest hs
    | niryaat => exact opens_exportStatement h _ rest hs
    | aasynk =>
      by_cases hk : rest.head?.map (·.lexeme) = some (.keyword .karya)
      · simp only [statement, bind_apply, get_apply, hk, if_true]
        exact hfunction
      · simp only [statement, bind_apply, get_apply, hk, if_false]
        exact hexpr
    | _ => exact hexpr
  | punct mark =>
    cases mark with
    | braceOpen => exact opens_block h _ rest hs
    | semicolon => exact fun hm => Bool.noConfusion hm
    | _ => exact hexpr
  | _ => exact hexpr

/-- A statement precedes those behind it, since all of them are read from tokens behind its first one. -/
theorem draws_statements (h : inner.DrawsLines) (hb : Ascending base) (untilBrace : Bool) :
    Draws base (statements inner untilBrace) (DrawnBody base) := by
  intro ts hts
  cases ts with
  | nil => exact ⟨⟨List.forall_mem_nil _, .nil⟩, hts⟩
  | cons tok rest =>
    have hleft := (takesOrLeaves_statement h.sound).shrinks (tok :: rest)
    rw [statements_cons]
    split
    · exact ⟨⟨List.forall_mem_nil _, .nil⟩, hts⟩
    · dsimp only
      split
      · refine h.statements untilBrace hb _ ?_
        split
        · exact (List.suffix_cons tok rest).trans hts
        · exact hleft.trans hts
      · next hm =>
        have hs := hb.suffix hts
        have hnode := opens_statement h tok rest hs (by simpa using hm)
        obtain ⟨hmore, hend⟩ := h.statements untilBrace hs _ hleft
        refine ⟨⟨?_, ?_⟩, hend.trans hts⟩
        · exact List.forall_mem_cons.2 ⟨hnode.drawn.mono hts, fun s hs => (hmore.drawn s hs).mono hts⟩
        · exact List.pairwise_cons.2 ⟨fun s hs' => hnode.precedes hs (hmore.drawn s hs'), hmore.pairwise⟩

end Grammar

/-! ## Every depth -/

namespace Inner

theorem drawsLines_ofNone : ofNone.DrawsLines where
  sound := sound_ofNone
  statements _ _ _ := .pure ⟨List.forall_mem_nil _, .nil⟩
  expr _ := .pure .missing
  operand _ _ _ := .pure .missing
  operators _ _ _ _ hl := .pure hl
  arguments _ := .pure (List.forall_mem_nil _)
  chain _ hh := .pure hh
  alternative _ := .pure .missing

theorem DrawsLines.step {inner : Inner} (h : inner.DrawsLines) : inner.step.DrawsLines where
  sound := h.sound.step
  statements untilBrace _ hb := Grammar.draws_statements h hb untilBrace
  expr hb := Grammar.draws_expr h hb
  operand floor _ hb := Grammar.draws_operand h hb floor
  operators floor _ _ hb hl := Grammar.draws_operators h hb floor hl
  arguments hb := Grammar.draws_arguments h hb
  chain hb hh := Grammar.draws_chain h hb hh
  alternative hb := Grammar.draws_alternative h hb

theorem drawsLines_upTo (n : Nat) : (upTo n).DrawsLines := by
  induction n with
  | zero => exact drawsLines_ofNone
  | succ n ih => exact ih.step

end Inner

/-! ## Texts -/

namespace Cursor

theorem line_le_pass (n : Nat) (c : Cursor) : c.line ≤ (pass n c).line := by
  induction n generalizing c with
  | zero => exact Nat.le_refl _
  | succ n ih =>
    have hnext : c.line ≤ c.next.line := by
      unfold next
      dsimp only
      split <;> omega
    exact hnext.trans (ih c.next)

theorem le_line_of_mem_tokensOf {c : Cursor} {pieces : List Piece} {tok : Token} (h : tok ∈ tokensOf c pieces) :
    c.line ≤ tok.line := by
  induction pieces generalizing c with
  | nil => cases h
  | cons p pieces ih =>
    rcases List.mem_cons.1 h with rfl | h
    · exact line_le_pass _ c
    · exact (line_le_pass _ c).trans (ih h)

theorem ascending_tokensOf (c : Cursor) (pieces : List Piece) : Ascending (tokensOf c pieces) := by
  induction pieces generalizing c with
  | nil => exact .nil
  | cons p pieces ih =>
    refine List.pairwise_cons.2 ⟨fun tok htok => ?_, ih _⟩
    have hbehind := le_line_of_mem_tokensOf htok
    rw [Piece.chars, List.length_append, pass_add] at hbehind
    exact (line_le_pass _ _).trans hbehind

theorem ascending_of_tokenize {text : String} {tokens : List Token} (h : tokenize text = .ok tokens) :
    Ascending tokens := by
  obtain ⟨hfailure, rfl⟩ := tokenize_eq_ok_iff.1 h
  obtain ⟨pieces, hpieces⟩ := exists_tiling _ hfailure
  rw [(hpieces.scan _ rfl).2]
  exact ascending_tokensOf _ pieces

end Cursor

/-- A text that has tokens makes a program, and every node below the program carries the line of a token. The
statements of the program and of every block stand in order, and no statement stands behind a node inside it
(`Node.Sourced`). -/
theorem sourced_parse {text : String} {tokens : List Token} (h : tokenize text = .ok tokens) :
    parseText text = .ok (parse tokens) ∧ (parse tokens).Sourced tokens := by
  have hbody : DrawnBody tokens (parse tokens).body :=
    (Grammar.draws_statements (Inner.drawsLines_upTo _) (Cursor.ascending_of_tokenize h) false tokens List.suffix_rfl).1
  refine ⟨?_, .of_parts (parse tokens).body rfl (fun s hs => (hbody.drawn s hs).mayBe) hbody.pairwise nofun⟩
  rw [parseText, h]
  rfl

/-- A condition over several lines, with a further condition behind it. -/
def spreadSource : String := "agar a &&\nb \x7b f\n(x)\n.y = z; ruk \x7d\nnahitoh\nc \x7b \x7d"

/-- The tokens of `spreadSource`. -/
def spreadTokens : List Token :=
  [⟨.keyword .agar, 1, 1⟩, ⟨.ident "a", 1, 6⟩, ⟨.op "&&", 1, 8⟩, ⟨.ident "b", 2, 1⟩, ⟨.punct .braceOpen, 2, 3⟩,
    ⟨.ident "f", 2, 5⟩, ⟨.punct .parenOpen, 3, 1⟩, ⟨.ident "x", 3, 2⟩, ⟨.punct .parenClose, 3, 3⟩, ⟨.punct .dot, 4, 1⟩,
    ⟨.ident "y", 4, 2⟩, ⟨.op "=", 4, 4⟩, ⟨.ident "z", 4, 6⟩, ⟨.punct .semicolon, 4, 7⟩, ⟨.keyword .ruk, 4, 9⟩,
    ⟨.punct .braceClose, 4, 13⟩, ⟨.keyword .nahitoh, 5, 1⟩, ⟨.ident "c", 6, 1⟩, ⟨.punct .braceOpen, 6, 3⟩,
    ⟨.punct .braceClose, 6, 5⟩]

/-- What is read from `spreadSource`. -/
def spreadProgram : Node :=
  .program none
    [.ifStmt (some 1) (.binary (some 1) "&&" (.ident (some 1) "a") (.ident (some 2) "b"))
      (.block (some 2)
        [.exprStmt (some 2) (.assign (some 4)
            (.member (some 4) (.call (some 3) (.ident (some 2) "f") (some [.ident (some 3) "x"])) (.ident (some 4) "y"))
            (.ident (some 4) "z")),
          .breakStmt (some 4)])
      (.ifStmt (some 5) (.ident (some 6) "c") (.block (some 6) []) .missing)]

theorem sourced_parse_spread : tokenize spreadSource = .ok spreadTokens ∧ parseText spreadSource = .ok spreadProgram ∧
    spreadProgram.Sourced spreadTokens := by
  have htokens : tokenize spreadSource = .ok spreadTokens := by decide +kernel
  have hparse : parse spreadTokens = spreadProgram := rfl
  have hsourced := sourced_parse htokens
  rw [hparse] at hsourced
  exact ⟨htokens, hsourced⟩

end HindiScript

import HindiScript.Proofs.Tree.Lines
import HindiScript.Proofs.Tree.Progress

/-!
# Where tokens stand changes only the lines of a tree

The rules never look at the place of a token but to note its line, and they never ask for an inner part
before a token is taken. Both follow from one statement, `Inner.Follows`: readers that agree on short lists
make rules that agree on lists with one token more, also when the tokens are moved to other lines in
between. With tokens that stay where they are it says that the readers do not depend on the depth, so that
each of them is given by its rule (`Parse.expr_eq` and its like); with all tokens on one line it says what
is kept of a tree when the lines are left out (`Parse.relined_expr`).
-/

namespace HindiScript

/-! ## Readers that follow one another -/

namespace Parse

variable {α β : Type} {r : Relining} {m k j : Nat}

/-- On lists of at most `m` tokens, `q` gives for the moved tokens what `p` gives for the tokens, with `g`
applied to the value, and `p` leaves at most `k` tokens. -/
def Follows (r : Relining) (g : α → α) (m k : Nat) (p q : Parse α) : Prop :=
  ∀ ts, ts.length ≤ m → q (ts.map r.token) = (g (p ts).1, (p ts).2.map r.token) ∧ (p ts).2.length ≤ k

theorem Follows.pure {g : α → α} {a b : α} (h : b = g a) (hk : m ≤ k) :
    Follows r g m k (pure a) (pure b) :=
  fun _ hts => ⟨by rw [h]; rfl, hts.trans hk⟩

theorem Follows.bind {g : α → α} {g' : β → β} {p q : Parse α} {f f' : α → Parse β}
    (hp : Follows r g m k p q) (hf : ∀ a, Follows r g' k j (f a) (f' (g a))) :
    Follows r g' m j (p >>= f) (q >>= f') := by
  intro ts hts
  obtain ⟨h1, h2⟩ := hp ts hts
  rw [bind_apply, bind_apply, h1]
  exact hf _ _ h2

theorem Follows.mono {g : α → α} {p q : Parse α} {m' k' : Nat} (h : Follows r g m k p q) (hm : m' ≤ m)
    (hk : k ≤ k') : Follows r g m' k' p q :=
  fun ts hts => ⟨(h ts (hts.trans hm)).1, (h ts (hts.trans hm)).2.trans hk⟩

theorem Follows.ite {g : α → α} {c : Prop} [Decidable c] {p q p' q' : Parse α} (h : Follows r g m k p q)
    (h' : Follows r g m k p' q') :
    Follows r g m k (if c then p else p') (if c then q else q') := by
  split
  · exact h
  · exact h'

/-- A reader that `Shrinks` follows itself, if moving the tokens does not change what it gives. -/
theorem Follows.self {g : α → α} {p : Parse α} (hs : Shrinks p)
    (h : ∀ ts, p (ts.map r.token) = (g (p ts).1, (p ts).2.map r.token)) : Follows r g m m p p :=
  fun ts hts => ⟨h ts, (hs ts).length_le.trans hts⟩

theorem Follows.of_nil {g : α → α} {p q : Parse α} (hm : m ≤ 0) (hp : (p []).2 = [])
    (hq : q [] = (g (p []).1, [])) : Follows r g m m p q := by
  intro ts hts
  obtain rfl : ts = [] := List.length_eq_zero_iff.1 (by omega)
  rw [hp]
  exact ⟨hq, hts⟩

theorem follows_takeLine : Follows r r.line m (m - 1) takeLine takeLine := by
  intro ts hts
  refine ⟨?_, by simp only [takeLine, List.length_tail]; omega⟩
  cases ts with
  | nil => simp [takeLine, r.line_none]
  | cons t rest => simp [takeLine_cons, r.line_some]

theorem follows_get : Follows r (List.map r.token) m m (get : Parse (List Token)) get :=
  .self shrinks_get fun _ => rfl

theorem follows_front? : Follows r id m m front? front? :=
  .self shrinks_front? fun ts => by simp only [front?, r.map_lexeme, id]

theorem follows_sees (l : Lexeme) : Follows r id m m (sees l) (sees l) :=
  .self (shrinks_sees l) fun ts => by simp only [sees, r.map_lexeme, id]

theorem follows_accept (l : Lexeme) : Follows r id m m (accept l) (accept l) := by
  refine .self (shrinks_accept l) fun ts => ?_
  cases ts with
  | nil => rfl
  | cons t rest =>
    simp only [List.map_cons, accept_cons, r.lexeme_token]
    split <;> simp

/-- Behind a token that was accepted there is one token less. -/
theorem Follows.acceptThen {g : α → α} {l : Lexeme} {p q p' q' : Parse α}
    (h : Follows r g (m - 1) k p q) (h' : Follows r g m k p' q') :
    Follows r g m k (accept l >>= fun t => if t then p else p') (accept l >>= fun t => if t then q else q') := by
  intro ts hts
  rcases ts with _ | ⟨t, rest⟩
  · exact h' [] hts
  by_cases hl : t.lexeme = l
  · have e : accept l (t :: rest) = (true, rest) := if_pos hl
    have e' : accept l (r.token t :: rest.map r.token) = (true, rest.map r.token) :=
      if_pos ((r.lexeme_token t).trans hl)
    rw [List.map_cons, bind_apply, bind_apply, e, e']
    exact h rest (by rw [List.length_cons] at hts; omega)
  · have e : accept l (t :: rest) = (false, t :: rest) := if_neg hl
    have e' : accept l (r.token t :: rest.map r.token) = (false, r.token t :: rest.map r.token) :=
      if_neg (by rwa [r.lexeme_token])
    rw [List.map_cons, bind_apply, bind_apply, e, e']
    exact h' (t :: rest) hts

theorem follows_takeName : Follows r id m m takeName takeName := by
  refine .self shrinks_takeName fun ts => ?_
  cases ts with
  | nil => rfl
  | cons t rest =>
    simp only [List.map_cons, takeName, r.lexeme_token]
    split <;> simp

theorem follows_takeString : Follows r id m m takeString takeString := by
  refine .self shrinks_takeString fun ts => ?_
  cases ts with
  | nil => rfl
  | cons t rest =>
    simp only [List.map_cons, takeString, r.lexeme_token]
    split <;> simp

theorem follows_skipSemicolon : Follows r id m m skipSemicolon skipSemicolon :=
  (follows_accept _).bind fun _ => .pure rfl le_rfl

theorem follows_paramNames : Follows r id m m paramNames paramNames := by
  refine .self shrinks_paramNames fun ts => ?_
  fun_induction paramNames ts with
  | case1 => simp [paramNames]
  | case2 t rest h => simp [paramNames, r.lexeme_token, h]
  | case3 t name h => simp [paramNames, r.lexeme_token, h]
  | case4 t name h comma rest names left heq ih1 ih2 =>
    rw [List.map_cons, List.map_cons, paramNames]
    simp only [r.lexeme_token, h]
    by_cases hc : comma.lexeme = .punct .comma
    · rw [if_pos hc] at heq
      rw [heq] at ih1
      simp [hc, ih1]
    · rw [if_neg hc] at heq
      rw [heq, List.map_cons] at ih2
      simp [hc, ih2]
  | case5 t rest h1 h2 ih =>
    rw [List.map_cons, paramNames, r.lexeme_token]
    split
    · exact absurd ‹_› h1
    · exact absurd ‹_› (h2 _)
    · exact ih

theorem follows_params : Follows r id m m params params := by
  refine (follows_accept _).bind fun opened => Follows.ite ?_ (.pure rfl le_rfl)
  exact follows_paramNames.bind fun _ => (follows_accept _).bind fun _ => .pure rfl le_rfl

theorem follows_importNames : Follows r id m m importNames importNames := by
  refine .self shrinks_importNames fun ts => ?_
  fun_induction importNames ts with
  | case1 => simp [importNames]
  | case2 t rest name h names left heq ih => simp_all [importNames, r.lexeme_token]
  | case3 t rest h ih => simp_all [importNames, r.lexeme_token]
  | case4 t rest h1 h2 =>
    rw [List.map_cons, importNames, r.lexeme_token]
    split
    · exact absurd ‹_› (h1 _)
    · exact absurd ‹_› h2
    · rfl

theorem namesThenArrow_map (n : Nat) (ts : List Token) :
    namesThenArrow n (ts.map r.token) = namesThenArrow n ts := by
  induction ts generalizing n with
  | nil => rfl
  | cons t rest ih =>
    cases n with
    | zero => rfl
    | succ n => simp [namesThenArrow, r.lexeme_token, ih]

theorem follows_arrowAhead : Follows r id m m arrowAhead arrowAhead := by
  refine .self (fun _ => List.suffix_rfl) fun ts => ?_
  simp [arrowAhead, ← List.map_tail, namesThenArrow_map]

end Parse

/-! ## Rules that follow one another -/

/-- On lists of at most `n` tokens, the readers `b` give for the moved tokens what the readers `a` give for
the tokens. -/
structure Inner.Follows (r : Relining) (n : Nat) (a b : Inner) : Prop where
  statements (untilBrace : Bool) {m : Nat} (hm : m ≤ n) :
    Parse.Follows r (Node.relinedAll r.line) m m (a.statements untilBrace) (b.statements untilBrace)
  expr {m : Nat} (hm : m ≤ n) : Parse.Follows r (Node.relined r.line) m m a.expr b.expr
  operand (floor : Int) {m : Nat} (hm : m ≤ n) :
    Parse.Follows r (Node.relined r.line) m m (a.operand floor) (b.operand floor)
  operators (floor : Int) (left : Node) {m : Nat} (hm : m ≤ n) :
    Parse.Follows r (Node.relined r.line) m m (a.operators floor left)
      (b.operators floor (left.relined r.line))
  arguments {m : Nat} (hm : m ≤ n) :
    Parse.Follows r (Node.relinedAll r.line) m m a.arguments b.arguments
  chain (head : Node) {m : Nat} (hm : m ≤ n) :
    Parse.Follows r (Node.relined r.line) m m (a.chain head) (b.chain (head.relined r.line))
  alternative {m : Nat} (hm : m ≤ n) :
    Parse.Follows r (Node.relined r.line) m m a.alternative b.alternative

namespace Grammar

open Parse

variable {r : Relining} {n m : Nat} {a b : Inner}

theorem follows_block (h : a.Follows r n b) (hm : m ≤ n + 1) :
    Follows r (Node.relined r.line) m m (block a) (block b) := by
  refine (follows_sees _).bind fun seen => Follows.ite ?_ (.pure rfl le_rfl)
  exact follows_takeLine.bind fun line => (h.statements true (by omega)).bind fun body =>
    (follows_accept _).bind fun _ => .pure rfl (by omega)

theorem follows_arrowBody (h : a.Follows r n b) (hm : m ≤ n) :
    Follows r (Node.relined r.line) m m (arrowBody a) (arrowBody b) :=
  (follows_sees _).bind fun brace => Follows.ite (follows_block h (by omega)) (h.expr hm)

theorem follows_arrowFunction (h : a.Follows r n b) (hm : m ≤ n + 1) (line : Option Int)
    (isAsync : Bool) :
    Follows r (Node.relined r.line) m m (arrowFunction a line isAsync)
      (arrowFunction b (r.line line) isAsync) := by
  refine follows_params.bind fun names => Follows.acceptThen ?_ (.pure rfl le_rfl)
  exact (follows_arrowBody h (by omega)).bind fun body => .pure rfl (by omega)

theorem follows_fetchCall (h : a.Follows r n b) (hm : m ≤ n + 1) :
    Follows r (Node.relined r.line) m m (fetchCall a) (fetchCall b) := by
  refine follows_takeLine.bind fun line => (follows_accept _).bind fun opened => Follows.ite ?_ ?_
  · exact (h.arguments (by omega)).bind fun args => .pure rfl (by omega)
  · refine (h.expr (by omega)).bind fun arg => .pure ?_ (by omega)
    rw [Node.isMissing_relined]
    split <;> simp [Node.relined, Node.relinedAll]

theorem follows_chain (h : a.Follows r n b) (hm : m ≤ n + 1) (head : Node) :
    Follows r (Node.relined r.line) m m (chain a head) (chain b (head.relined r.line)) := by
  intro ts hts
  rcases ts with _ | ⟨⟨l, line, column⟩, rest⟩
  · exact ⟨rfl, hts⟩
  obtain ⟨line', column', ht, hline⟩ := r.token_eq l line column
  rw [List.length_cons] at hts
  simp only [List.map_cons, ht]
  cases l with
  | punct mark =>
    cases mark with
    | parenOpen =>
      refine Follows.bind (h.arguments (by omega)) (fun args => ?_) rest (Nat.le_sub_one_of_lt hts)
      rw [← hline]
      exact (h.chain (.call (some (line : Int)) head (some args)) (by omega)).mono le_rfl (by omega)
    | dot =>
      -- The node takes its line from the name, not from the dot.
      rcases rest with _ | ⟨⟨l, line, column⟩, rest⟩
      · exact ⟨by simp [chain, ht], by simpa [chain] using hts⟩
      obtain ⟨line', column', ht', hline'⟩ := r.token_eq l line column
      rw [List.length_cons] at hts
      simp only [List.map_cons, ht']
      cases l with
      | ident name =>
        have := h.chain (.member (some (line : Int)) head (.ident (some (line : Int)) name))
          (show m - 2 ≤ n by omega)
        rw [Node.relined, Node.relined, hline'] at this
        exact (this.mono le_rfl (Nat.sub_le m 2)) rest (by omega)
      | _ => exact ⟨by simp [chain, ht, ht'], by simpa [chain] using hts⟩
    | _ => exact ⟨by simp [chain, ht], by simpa [chain] using hts⟩
  | _ => exact ⟨by simp [chain, ht], by simpa [chain] using hts⟩

theorem follows_parenthesized (h : a.Follows r n b) (hm : m ≤ n + 1) (line : Option Int) :
    Follows r (Node.relined r.line) m m (parenthesized a line) (parenthesized b (r.line line)) := by
  refine follows_arrowAhead.bind fun ahead => Follows.ite (follows_arrowFunction h hm line false) ?_
  exact follows_takeLine.bind fun _ => (h.expr (by omega)).bind fun value =>
    (follows_accept _).bind fun _ => .pure rfl (by omega)

theorem follows_primary (h : a.Follows r n b) (hm : m ≤ n + 1) :
    Follows r (Node.relined r.line) m m (primary a) (primary b) := by
  intro ts hts
  rcases ts with _ | ⟨⟨l, line, column⟩, rest⟩
  · exact ⟨rfl, hts⟩
  obtain ⟨line', column', ht, hline⟩ := r.token_eq l line column
  have hrest : rest.length ≤ m := by rw [List.length_cons] at hts; omega
  -- What each rule gives, stated before the lexeme is known, since the cases below decide which rule it is.
  have hnone : Follows r (Node.relined r.line) m m (pure .missing) (pure .missing) := .pure rfl le_rfl
  replace hnone := hnone (⟨l, line, column⟩ :: rest) hts
  have hfetch := follows_fetchCall h hm (⟨l, line, column⟩ :: rest) hts
  have hparen := follows_parenthesized h hm (some (line : Int)) (⟨l, line, column⟩ :: rest) hts
  rw [List.map_cons, ht] at hnone hfetch hparen ⊢
  rw [hline] at hparen
  cases l with
  | number value => exact ⟨by simp [primary, Node.relined, hline], hrest⟩
  | string text => exact ⟨by simp [primary, Node.relined, hline], hrest⟩
  | ident name =>
    have := follows_chain h hm (.ident (some (line : Int)) name) rest hrest
    rw [Node.relined, hline] at this
    exact this
  | punct mark =>
    cases mark with
    | parenOpen => exact hparen
    | _ => exact hnone
  | keyword word =>
    cases word with
    | lao => exact hfetch
    | aasynk =>
      by_cases hp : rest.head?.map (·.lexeme) = some (.punct .parenOpen)
      · simp only [primary, bind_apply, get_apply, r.map_lexeme, hp, if_true, set_apply, ← hline]
        exact follows_arrowFunction h hm (some (line : Int)) true rest hrest
      · simp only [primary, bind_apply, get_apply, r.map_lexeme, hp, if_false]
        exact hnone
    | _ => exact hnone
  | _ => exact hnone

theorem follows_unary (h : a.Follows r n b) (hm : m ≤ n + 1) :
    Follows r (Node.relined r.line) m m (unary a) (unary b) := by
  refine (follows_sees _).bind fun waits => Follows.ite ?_ (follows_primary h hm)
  exact follows_takeLine.bind fun line => (h.operand _ (by omega)).bind fun value => .pure rfl (by omega)

theorem follows_operators (h : a.Follows r n b) (hm : m ≤ n + 1) (floor : Int) (left : Node) :
    Follows r (Node.relined r.line) m m (operators a floor left)
      (operators b floor (left.relined r.line)) := by
  intro ts hts
  rcases ts with _ | ⟨⟨l, line, column⟩, rest⟩
  · exact ⟨rfl, hts⟩
  obtain ⟨line', column', ht, hline⟩ := r.token_eq l line column
  cases l with
  | op symbol =>
    rw [List.map_cons, ht]
    by_cases hp : (precedence symbol : Int) ≤ floor
    · simp only [operators, hp, if_true]
      exact ⟨by simp [ht], hts⟩
    · simp only [operators, hp, if_false]
      rw [List.length_cons] at hts
      refine Follows.bind (h.operand _ (by omega)) (fun right => ?_) rest (Nat.le_sub_one_of_lt hts)
      have := h.operators floor (.binary (some (line : Int)) symbol left right) (show m - 1 ≤ n by omega)
      rw [Node.relined, hline] at this
      exact this.mono le_rfl (Nat.sub_le m 1)
  | _ => exact ⟨by simp [operators, ht], hts⟩

theorem follows_operand (h : a.Follows r n b) (hm : m ≤ n + 1) (floor : Int) :
    Follows r (Node.relined r.line) m m (operand a floor) (operand b floor) := by
  refine (follows_unary h hm).bind fun left => ?_
  rw [Node.isMissing_relined]
  exact Follows.ite (.pure rfl le_rfl) (follows_operators h hm floor left)

theorem follows_expr (h : a.Follows r n b) (hm : m ≤ n + 1) :
    Follows r (Node.relined r.line) m m (expr a) (expr b) := by
  refine (follows_operand h hm 0).bind fun left => ?_
  rw [Node.isMissing_relined]
  refine Follows.ite (.pure rfl le_rfl) ((follows_sees _).bind fun equals => Follows.ite ?_ (.pure rfl le_rfl))
  exact follows_takeLine.bind fun line => (h.expr (by omega)).bind fun value => .pure rfl (by omega)

theorem follows_behindMissing (h : a.Follows r n b) (hm : m ≤ n + 1) :
    Follows r (Node.relinedAll r.line) m m (behindArgument a .missing) (behindArgument b .missing) := by
  refine Follows.acceptThen ((h.arguments (by omega)).mono le_rfl (by omega)) ?_
  exact (follows_accept _).bind fun _ => .pure rfl le_rfl

theorem follows_behindArgument (h : a.Follows r n b) (hm : m ≤ n) {arg : Node} (harg : arg.isMissing = false) :
    Follows r (Node.relinedAll r.line) m m (behindArgument a arg) (behindArgument b (arg.relined r.line)) := by
  refine (follows_accept _).bind fun comma => ?_
  rw [Node.isMissing_relined, harg]
  exact (h.arguments hm).bind fun more => .pure rfl le_rfl

theorem follows_arguments (h : a.Follows r n b) (ha : a.Sound) (hm : m ≤ n + 1) :
    Follows r (Node.relinedAll r.line) m m (arguments a) (arguments b) := by
  have hall : Follows r (Node.relinedAll r.line) m m (expr a >>= behindArgument a)
      (expr b >>= behindArgument b) := by
    intro ts hts
    obtain ⟨h1, h2⟩ := follows_expr h hm ts hts
    rw [bind_apply, bind_apply, h1]
    cases he : (expr a ts).1.isMissing with
    | true =>
      rw [Node.eq_missing he]
      exact follows_behindMissing h hm _ h2
    | false =>
      -- The argument took a token, so that `h` speaks of the arguments behind it, with or without a comma.
      have hlt := (takesOrLeaves_expr ha).length_lt he
      exact (follows_behindArgument h (show m - 1 ≤ n by omega) he).mono le_rfl (by omega) _ (by omega)
  refine follows_front?.bind fun front => ?_
  rcases front with _ | l
  · exact .pure rfl le_rfl
  cases l with
  | punct mark =>
    cases mark with
    | parenClose => exact (follows_accept _).bind fun _ => .pure rfl le_rfl
    | _ => exact hall
  | _ => exact hall

/-! ### Statements -/

theorem follows_initializer (h : a.Follows r n b) (hm : m ≤ n) :
    Follows r (Node.relined r.line) m m (initializer a) (initializer b) :=
  (follows_accept _).bind fun _ => Follows.ite (h.expr hm) (.pure rfl le_rfl)

theorem follows_declaration (h : a.Follows r n b) (hm : m ≤ n + 1) :
    Follows r (Node.relined r.line) m m (declaration a) (declaration b) :=
  (follows_sees _).bind fun isConstant => follows_takeLine.bind fun line => follows_takeName.bind fun name =>
    (follows_initializer h (by omega)).bind fun value => .pure rfl (by omega)

theorem follows_variableStatement (h : a.Follows r n b) (hm : m ≤ n + 1) :
    Follows r (Node.relined r.line) m m (variableStatement a) (variableStatement b) :=
  (follows_declaration h hm).bind fun _ => follows_skipSemicolon.bind fun _ => .pure rfl le_rfl

theorem follows_printStatement (h : a.Follows r n b) (hm : m ≤ n + 1) :
    Follows r (Node.relined r.line) m m (printStatement a) (printStatement b) :=
  follows_takeLine.bind fun line => (h.expr (by omega)).bind fun value =>
    follows_skipSemicolon.bind fun _ => .pure rfl (by omega)

theorem follows_ifStatement (h : a.Follows r n b) (hm : m ≤ n + 1) :
    Follows r (Node.relined r.line) m m (ifStatement a) (ifStatement b) :=
  follows_takeLine.bind fun line => (h.expr (by omega)).bind fun test =>
    (follows_block h (by omega)).bind fun consequent => (h.alternative (by omega)).bind fun alternate =>
    .pure rfl (by omega)

theorem follows_alternative (h : a.Follows r n b) (hm : m ≤ n + 1) :
    Follows r (Node.relined r.line) m m (alternative a) (alternative b) := by
  refine follows_front?.bind fun front => ?_
  rcases front with _ | l
  · exact .pure rfl le_rfl
  cases l with
  | keyword word =>
    cases word with
    | nahitoh => exact follows_ifStatement h hm
    | warna =>
      exact follows_takeLine.bind fun _ => (follows_block h (by omega)).mono le_rfl (by omega)
    | _ => exact .pure rfl le_rfl
  | _ => exact .pure rfl le_rfl

theorem follows_whileStatement (h : a.Follows r n b) (hm : m ≤ n + 1) :
    Follows r (Node.relined r.line) m m (whileStatement a) (whileStatement b) :=
  follows_takeLine.bind fun line => (h.expr (by omega)).bind fun test =>
    (follows_block h (by omega)).bind fun body => .pure rfl (by omega)

theorem follows_loopStart (h : a.Follows r n b) (hm : m ≤ n) :
    Follows r (Node.relined r.line) m m (loopStart a) (loopStart b) := by
  refine follows_front?.bind fun front => ?_
  rcases front with _ | l
  · exact h.expr hm
  cases l with
  | keyword word =>
    cases word with
    | ye | sthayi => exact follows_declaration h (by omega)
    | _ => exact h.expr hm
  | punct mark =>
    cases mark with
    | semicolon => exact .pure rfl le_rfl
    | _ => exact h.expr hm
  | _ => exact h.expr hm

theorem follows_loopPart (h : a.Follows r n b) (hm : m ≤ n) (stop : Punct) :
    Follows r (Node.relined r.line) m m (loopPart a stop) (loopPart b stop) :=
  (follows_sees _).bind fun _ => Follows.ite (.pure rfl le_rfl) (h.expr hm)

theorem follows_forStatement (h : a.Follows r n b) (hm : m ≤ n + 1) :
    Follows r (Node.relined r.line) m m (forStatement a) (forStatement b) := by
  refine follows_takeLine.bind fun line => (follows_accept _).bind fun opened => Follows.ite ?_ ?_
  · exact (follows_loopStart h (by omega)).bind fun init => follows_skipSemicolon.bind fun _ =>
      (follows_loopPart h (by omega) _).bind fun test => follows_skipSemicolon.bind fun _ =>
      (follows_loopPart h (by omega) _).bind fun update => (follows_accept _).bind fun _ =>
      (follows_block h (by omega)).bind fun body => .pure rfl (by omega)
  · exact (follows_block h (by omega)).bind fun body => .pure rfl (by omega)

theorem follows_returnStatement (h : a.Follows r n b) (hm : m ≤ n + 1) :
    Follows r (Node.relined r.line) m m (returnStatement a) (returnStatement b) :=
  follows_takeLine.bind fun line => (h.expr (by omega)).bind fun value =>
    follows_skipSemicolon.bind fun _ => .pure rfl (by omega)

theorem follows_breakStatement : Follows r (Node.relined r.line) m m breakStatement breakStatement :=
  follows_takeLine.bind fun line => follows_skipSemicolon.bind fun _ => .pure rfl (by omega)

theorem follows_continueStatement :
    Follows r (Node.relined r.line) m m continueStatement continueStatement :=
  follows_takeLine.bind fun line => follows_skipSemicolon.bind fun _ => .pure rfl (by omega)

theorem follows_importStatement : Follows r (Node.relined r.line) m m importStatement importStatement := by
  refine follows_takeLine.bind fun line => (follows_accept _).bind fun braced => Follows.ite ?_ ?_
  · exact follows_importNames.bind fun names => (follows_accept _).bind fun _ =>
      (follows_accept _).bind fun _ => follows_takeString.bind fun source =>
      follows_skipSemicolon.bind fun _ => .pure rfl (by omega)
  · exact follows_takeString.bind fun source => follows_skipSemicolon.bind fun _ => .pure rfl (by omega)

theorem follows_functionDeclaration (h : a.Follows r n b) (hm : m ≤ n + 1) :
    Follows r (Node.relined r.line) m m (functionDeclaration a) (functionDeclaration b) := by
  refine follows_get.bind fun ts => (follows_accept _).bind fun isAsync => (follows_accept _).bind fun _ =>
    follows_takeName.bind fun name => follows_params.bind fun names =>
    (follows_block h hm).bind fun body => .pure ?_ le_rfl
  rw [r.line_head?]
  rfl

theorem follows_exportStatement (h : a.Follows r n b) (hm : m ≤ n + 1) :
    Follows r (Node.relined r.line) m m (exportStatement a) (exportStatement b) := by
  refine follows_takeLine.bind fun line => follows_front?.bind fun front => ?_
  have hnone : Follows r (Node.relined r.line) (m - 1) m (pure (.exportDecl line .missing none))
      (pure (.exportDecl (r.line line) .missing none)) := .pure rfl (by omega)
  rcases front with _ | l
  · exact hnone
  cases l with
  | keyword word =>
    cases word with
    | ye | sthayi =>
      exact (follows_variableStatement h (by omega)).bind fun declared => .pure rfl (by omega)
    | karya | aasynk =>
      exact (follows_functionDeclaration h (by omega)).bind fun declared => .pure rfl (by omega)
    | _ => exact hnone
  | ident name =>
    exact follows_takeLine.bind fun _ => follows_skipSemicolon.bind fun _ => .pure rfl (by omega)
  | _ => exact hnone

theorem follows_expressionStatement (h : a.Follows r n b) (hm : m ≤ n + 1) :
    Follows r (Node.relined r.line) m m (expressionStatement a) (expressionStatement b) := by
  refine follows_get.bind fun ts => (follows_expr h hm).bind fun value =>
    follows_skipSemicolon.bind fun _ => .pure ?_ le_rfl
  rw [Node.isMissing_relined, r.line_head?]
  split <;> rfl

theorem follows_statement (h : a.Follows r n b) (hm : m ≤ n + 1) :
    Follows r (Node.relined r.line) m m (statement a) (statement b) := by
  intro ts hts
  rcases ts with _ | ⟨⟨l, line, column⟩, rest⟩
  · exact ⟨rfl, hts⟩
  obtain ⟨line', column', ht, -⟩ := r.token_eq l line column
  -- Both lists start with the same lexeme, so that both statements are read by the same rule.
  have hstart : ∀ {p q : Parse Node}, Follows r (Node.relined r.line) m m p q →
      q (⟨l, line', column'⟩ :: rest.map r.token) = ((p (⟨l, line, column⟩ :: rest)).1.relined r.line,
        (p (⟨l, line, column⟩ :: rest)).2.map r.token) ∧ (p (⟨l, line, column⟩ :: rest)).2.length ≤ m := by
    intro p q hpq
    have := hpq (⟨l, line, column⟩ :: rest) hts
    rwa [List.map_cons, ht] at this
  have hexpr := hstart (follows_expressionStatement h hm)
  rw [List.map_cons, ht]
  cases l with
  | keyword word =>
    cases word with
    | ye | sthayi => exact (hstart (follows_variableStatement h hm) :)
    | bol => exact (hstart (follows_printStatement h hm) :)
    | agar => exact (hstart (follows_ifStatement h hm) :)
    | lagataar => exact (hstart (follows_whileStatement h hm) :)
    | jabtak => exact (hstart (follows_forStatement h hm) :)
    | wapas => exact (hstart (follows_returnStatement h hm) :)
    | ruk => exact (hstart follows_breakStatement :)
    | chhod => exact (hstart follows_continueStatement :)
    | karya => exact (hstart (follows_functionDeclaration h hm) :)
    | aayaat => exact (hstart follows_importStatement :)
    | niryaat => exact (hstart (follows_exportStatement h hm) :)
    | aasynk =>
      by_cases hk : rest.head?.map (·.lexeme) = some (.keyword .karya)
      · simp only [statement, bind_apply, get_apply, r.map_lexeme, hk, if_true]
        exact (hstart (follows_functionDeclaration h hm) :)
      · simp only [statement, bind_apply, get_apply, r.map_lexeme, hk, if_false]
        exact hexpr
    | _ => exact hexpr
  | punct mark =>
    cases mark with
    | braceOpen => exact (hstart (follows_block h hm) :)
    | semicolon => exact ⟨rfl, by simpa [statement] using Nat.le_of_succ_le hts⟩
    | _ => exact hexpr
  | _ => exact hexpr

theorem follows_statements (h : a.Follows r n b) (ha : a.Sound) (hm : m ≤ n + 1) (untilBrace : Bool) :
    Follows r (Node.relinedAll r.line) m m (statements a untilBrace) (statements b untilBrace) := by
  intro ts hts
  rcases ts with _ | ⟨tok, rest⟩
  · exact ⟨rfl, hts⟩
  obtain ⟨h1, -⟩ := follows_statement h hm (tok :: rest) hts
  have hshrinks := (takesOrLeaves_statement ha).shrinks (tok :: rest)
  have hlt : (statement a (tok :: rest)).1.isMissing = false →
      (statement a (tok :: rest)).2.length < (tok :: rest).length :=
    (takesOrLeaves_statement ha).length_lt
  rw [List.map_cons] at h1
  rw [List.map_cons, statements_cons, statements_cons, r.lexeme_token, h1]
  split
  · exact ⟨rfl, hts⟩
  · -- Where a statement was read a token was taken; where none was, one is passed over.
    have hone : ∀ us : List Token, us.length < (tok :: rest).length → us.length ≤ m - 1 := by omega
    simp only [Node.isMissing_relined, List.length_map, List.length_cons]
    cases hs : (statement a (tok :: rest)).1.isMissing with
    | true =>
      simp only [if_true]
      have hlen : (if (statement a (tok :: rest)).2.length = rest.length + 1 then rest
          else (statement a (tok :: rest)).2).length ≤ m - 1 := by
        apply hone
        have := hshrinks.length_le
        rw [List.length_cons] at this ⊢
        split <;> omega
      have := (h.statements untilBrace (show m - 1 ≤ n by omega)).mono le_rfl (Nat.sub_le m 1) _ hlen
      rwa [apply_ite (List.map r.token)] at this
    | false =>
      have := (h.statements untilBrace (show m - 1 ≤ n by omega)).mono le_rfl (Nat.sub_le m 1) _
        (hone _ (hlt hs))
      simp only [Bool.false_eq_true, if_false, this.1]
      exact ⟨rfl, this.2⟩

end Grammar

/-! ## Every depth that is enough -/

namespace Inner

open Parse

variable {r : Relining} {n k l : Nat} {a b : Inner}

theorem Follows.step (h : a.Follows r n b) (ha : a.Sound) : a.step.Follows r (n + 1) b.step where
  statements untilBrace _ hm := Grammar.follows_statements h ha hm untilBrace
  expr hm := Grammar.follows_expr h hm
  operand floor _ hm := Grammar.follows_operand h hm floor
  operators floor left _ hm := Grammar.follows_operators h hm floor left
  arguments hm := Grammar.follows_arguments h ha hm
  chain head _ hm := Grammar.follows_chain h hm head
  alternative hm := Grammar.follows_alternative h hm

/-- With no token left every depth gives the same. -/
theorem follows_upTo_zero (r : Relining) (k l : Nat) : (upTo k).Follows r 0 (upTo l) where
  statements _ _ hm := .of_nil hm (by cases k <;> rfl) (by cases k <;> cases l <;> rfl)
  expr hm := .of_nil hm (by cases k <;> rfl) (by cases k <;> cases l <;> rfl)
  operand _ _ hm := .of_nil hm (by cases k <;> rfl) (by cases k <;> cases l <;> rfl)
  operators _ _ _ hm := .of_nil hm (by cases k <;> rfl) (by cases k <;> cases l <;> rfl)
  arguments hm := .of_nil hm (by cases k <;> rfl) (by cases k <;> cases l <;> rfl)
  chain _ _ hm := .of_nil hm (by cases k <;> rfl) (by cases k <;> cases l <;> rfl)
  alternative hm := .of_nil hm (by cases k <;> rfl) (by cases k <;> cases l <;> rfl)

/-- A depth of at least `n` is enough for `n` tokens, so that all such depths give the same. -/
theorem follows_upTo (r : Relining) (hk : n ≤ k) (hl : n ≤ l) : (upTo k).Follows r n (upTo l) := by
  induction n generalizing k l with
  | zero => exact follows_upTo_zero r k l
  | succ n ih =>
    -- Both depths allow one more step of the rules, and below it they are enough for one token less.
    obtain ⟨k, rfl⟩ : ∃ i, k = i + 1 := ⟨k - 1, by omega⟩
    obtain ⟨l, rfl⟩ : ∃ i, l = i + 1 := ⟨l - 1, by omega⟩
    rw [upTo_succ, upTo_succ]
    exact (ih (by omega) (by omega)).step (sound_upTo k)

/-- The readers of `Parse`, as readers for the inner parts. -/
@[simps]
def readers : Inner where
  statements := Parse.statements
  expr := Parse.expr
  operand := Parse.operand
  operators := Parse.operators
  arguments := Parse.arguments
  chain := Parse.chain
  alternative := Parse.alternative

/-- `readers` take the depth from the number of their tokens, and so give what a greater depth gives. -/
theorem follows_readers_of_upTo (r : Relining) (n : Nat) : (upTo n).Follows r n readers := by
  have h : ∀ {m : Nat} {ts : List Token}, m ≤ n → ts.length ≤ m →
      (upTo n).Follows r ts.length (upTo ((ts.map r.token).length + 1)) := fun hm hts =>
    follows_upTo r (hts.trans hm) (by rw [List.length_map]; omega)
  exact {
    statements := fun untilBrace _ hm ts hts =>
      ((h hm hts).statements untilBrace le_rfl).mono le_rfl hts ts le_rfl
    expr := fun hm ts hts => ((h hm hts).expr le_rfl).mono le_rfl hts ts le_rfl
    operand := fun floor _ hm ts hts => ((h hm hts).operand floor le_rfl).mono le_rfl hts ts le_rfl
    operators := fun floor left _ hm ts hts =>
      ((h hm hts).operators floor left le_rfl).mono le_rfl hts ts le_rfl
    arguments := fun hm ts hts => ((h hm hts).arguments le_rfl).mono le_rfl hts ts le_rfl
    chain := fun head _ hm ts hts => ((h hm hts).chain head le_rfl).mono le_rfl hts ts le_rfl
    alternative := fun hm ts hts => ((h hm hts).alternative le_rfl).mono le_rfl hts ts le_rfl }

end Inner

/-! ## Readers and their rules -/

namespace Parse

open HindiScript.Inner

/-- With tokens that stay where they are, readers that follow one another give the same. -/
theorem Follows.eq_of_stay {α : Type} {g : α → α} {m k : Nat} {p q : Parse α} (hg : ∀ a, g a = a)
    (h : Follows .stay g m k p q) {ts : List Token} (hts : ts.length ≤ m) : q ts = p ts := by
  have := (h ts hts).1
  simp only [Relining.stay, List.map_id, hg] at this
  exact this

/-- A `rule` reads the same with `readers` as its inner parts, if it reads the same with all inner parts that agree on
shorter lists. -/
theorem enough_eq {α : Type} {g : α → α} (hg : ∀ a, g a = a) (rule : Inner → Parse α)
    (h : ∀ n, (upTo n).Follows .stay n readers → Follows .stay g (n + 1) (n + 1) (rule (upTo n)) (rule readers)) :
    enough rule = rule readers := by
  funext ts
  exact ((h ts.length (follows_readers_of_upTo .stay ts.length)).eq_of_stay hg (Nat.le_succ _)).symm

theorem expr_eq : expr = Grammar.expr readers :=
  enough_eq Node.relined_id _ fun _ h => Grammar.follows_expr h le_rfl

theorem operand_eq (floor : Int) : operand floor = Grammar.operand readers floor :=
  enough_eq Node.relined_id _ fun _ h => Grammar.follows_operand h le_rfl floor

theorem operators_eq (floor : Int) (left : Node) : operators floor left = Grammar.operators readers floor left := by
  refine enough_eq Node.relined_id (fun inner => Grammar.operators inner floor left) fun _ h => ?_
  have := Grammar.follows_operators h le_rfl floor left
  rwa [show left.relined Relining.stay.line = left from Node.relined_id left] at this

theorem unary_eq : unary = Grammar.unary readers :=
  enough_eq Node.relined_id _ fun _ h => Grammar.follows_unary h le_rfl

theorem chain_eq (head : Node) : chain head = Grammar.chain readers head := by
  refine enough_eq Node.relined_id (fun inner => Grammar.chain inner head) fun _ h => ?_
  have := Grammar.follows_chain h le_rfl head
  rwa [show head.relined Relining.stay.line = head from Node.relined_id head] at this

theorem arguments_eq : arguments = Grammar.arguments readers :=
  enough_eq Node.relinedAll_id _ fun n h => Grammar.follows_arguments h (sound_upTo n) le_rfl

theorem block_eq : block = Grammar.block readers :=
  enough_eq Node.relined_id _ fun _ h => Grammar.follows_block h le_rfl

theorem alternative_eq : alternative = Grammar.alternative readers :=
  enough_eq Node.relined_id _ fun _ h => Grammar.follows_alternative h le_rfl

theorem statement_eq : statement = Grammar.statement readers :=
  enough_eq Node.relined_id _ fun _ h => Grammar.follows_statement h le_rfl

theorem statements_eq (untilBrace : Bool) : statements untilBrace = Grammar.statements readers untilBrace :=
  enough_eq Node.relinedAll_id _ fun n h => Grammar.follows_statements h (sound_upTo n) le_rfl untilBrace

/-- Moving the tokens to other lines changes only the lines of an expression. -/
theorem relined_expr (r : Relining) (ts : List Token) :
    expr (ts.map r.token) = ((expr ts).1.relined r.line, (expr ts).2.map r.token) := by
  have h := follows_upTo r (le_refl ts.length) (le_refl ts.length)
  have := (Grammar.follows_expr h (Nat.le_succ _) ts le_rfl).1
  rwa [expr, enough, List.length_map]

theorem relined_statements (r : Relining) (untilBrace : Bool) (ts : List Token) :
    statements untilBrace (ts.map r.token) =
      (Node.relinedAll r.line (statements untilBrace ts).1, (statements untilBrace ts).2.map r.token) := by
  have h := follows_upTo r (le_refl ts.length) (le_refl ts.length)
  have := (Grammar.follows_statements h (sound_upTo _) (Nat.le_succ _) untilBrace ts le_rfl).1
  rwa [statements, enough, List.length_map]

end Parse

end HindiScript

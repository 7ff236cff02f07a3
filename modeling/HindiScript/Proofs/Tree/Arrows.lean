import HindiScript.Proofs.Tree.Productions

/-!
# Looking ahead for an arrow

An opening parenthesis starts the parameters of an arrow function or an expression. Looking ahead decides which, and
then the parameters are read by a reader that knows nothing of it and passes over whatever it does not expect. The
two agree: looking ahead finds an arrow exactly behind a short list of names and commas in parentheses, and then these
names are the parameters, and the body is read from what stands behind the arrow (`arrowAhead_parenOpen`).
-/

namespace HindiScript

open Lexeme Punct

/-- A name or a comma. -/
def Lexeme.inParameters : Lexeme → Bool
  | ident _ | punct comma => true
  | _ => false

def Lexeme.name? : Lexeme → Option String
  | ident name => some name
  | _ => none

/-- `ts` are names and commas (`inside`), a closing parenthesis, an arrow, and what stands `behind` it. -/
def ArrowHead (ts inside behind : List Token) : Prop :=
  (∀ t ∈ inside, t.lexeme.inParameters = true) ∧
    ∃ close arrow, close.lexeme = punct parenClose ∧ arrow.lexeme = op "=>" ∧ ts = inside ++ close :: arrow :: behind

variable {n : Nat} {tok : Token} {ts inside behind rest : List Token}

theorem ArrowHead.cons (h : ArrowHead ts inside behind) (htok : tok.lexeme.inParameters = true) :
    ArrowHead (tok :: ts) (tok :: inside) behind := by
  obtain ⟨hinside, close, arrow, hclose, harrow, rfl⟩ := h
  exact ⟨List.forall_mem_cons.2 ⟨htok, hinside⟩, close, arrow, hclose, harrow, rfl⟩

namespace Parse

open HindiScript.Inner

/-! ## Looking ahead -/

theorem namesThenArrow_cons (h : tok.lexeme.inParameters = true) (n : Nat) (ts : List Token) :
    namesThenArrow (n + 1) (tok :: ts) = namesThenArrow n ts := by
  obtain ⟨l, line, column⟩ := tok
  cases l with
  | ident => rfl
  | punct mark =>
    cases mark with
    | comma => rfl
    | _ => cases h
  | _ => cases h

theorem exists_arrowHead (h : namesThenArrow n ts = true) :
    ∃ inside behind, inside.length < n ∧ ArrowHead ts inside behind := by
  fun_induction namesThenArrow n ts with
  | case1 | case2 | case6 => cases h
  | case3 n close rest hclose =>
    obtain ⟨arrow, hrest, harrow⟩ := Option.map_eq_some_iff.1 (of_decide_eq_true h)
    obtain ⟨behind, rfl⟩ := List.head?_eq_some_iff.1 hrest
    exact ⟨[], behind, Nat.succ_pos n, List.forall_mem_nil _, close, arrow, hclose, harrow, rfl⟩
  | case4 n tok rest name htok ih =>
    obtain ⟨inside, behind, hlength, hhead⟩ := ih h
    exact ⟨tok :: inside, behind, Nat.succ_lt_succ hlength, hhead.cons (by rw [htok]; rfl)⟩
  | case5 n tok rest htok ih =>
    obtain ⟨inside, behind, hlength, hhead⟩ := ih h
    exact ⟨tok :: inside, behind, Nat.succ_lt_succ hlength, hhead.cons (by rw [htok]; rfl)⟩

theorem namesThenArrow_of_arrowHead (hlength : inside.length < n) (h : ArrowHead ts inside behind) :
    namesThenArrow n ts = true := by
  obtain ⟨hinside, close, arrow, hclose, harrow, rfl⟩ := h
  obtain ⟨n, rfl⟩ : ∃ i, n = i + 1 := ⟨n - 1, by omega⟩
  induction inside generalizing n with
  | nil => simp [namesThenArrow, hclose, harrow]
  | cons tok inside ih =>
    obtain ⟨htok, hinside⟩ := List.forall_mem_cons.1 hinside
    rw [List.length_cons] at hlength
    obtain ⟨n, rfl⟩ : ∃ i, n = i + 1 := ⟨n - 1, by omega⟩
    rw [List.cons_append, namesThenArrow_cons htok]
    exact ih hinside n (by omega)

/-! ## Reading the parameters -/

theorem paramNames_ident (name : String) (line column : Nat) (ts : List Token) :
    paramNames (⟨ident name, line, column⟩ :: ts) = (name :: (paramNames ts).1, (paramNames ts).2) := by
  cases ts with
  | nil => rfl
  | cons tok rest =>
    rw [paramNames]
    by_cases hcomma : tok.lexeme = punct comma
    · simp [hcomma, paramNames]
    · simp [hcomma]

theorem paramNames_inside (h : ∀ t ∈ inside, t.lexeme.inParameters = true) {close : Token}
    (hclose : close.lexeme = punct parenClose) (rest : List Token) :
    paramNames (inside ++ close :: rest) = (inside.filterMap (·.lexeme.name?), close :: rest) := by
  induction inside with
  | nil => simp [paramNames, hclose]
  | cons tok inside ih =>
    obtain ⟨htok, hinside⟩ := List.forall_mem_cons.1 h
    obtain ⟨l, line, column⟩ := tok
    cases l with
    | ident name =>
      rw [List.cons_append, paramNames_ident, ih hinside]
      rfl
    | punct mark =>
      cases mark with
      | comma => exact ih hinside
      | _ => cases htok
    | _ => cases htok

theorem primary_eq : primary = Grammar.primary readers :=
  enough_eq Node.relined_id _ fun _ h => Grammar.follows_primary h le_rfl

/-- In front of an `ArrowHead`, the parameters are the names `inside`, and the body is read behind the arrow. -/
theorem arrowFunction_arrowHead (h : ArrowHead rest inside behind) (hopen : tok.lexeme = punct parenOpen)
    (line : Option Int) (isAsync : Bool) :
    Grammar.arrowFunction readers line isAsync (tok :: rest) =
      (.arrow line (some (inside.filterMap (·.lexeme.name?))) (Grammar.arrowBody readers behind).1 isAsync,
        (Grammar.arrowBody readers behind).2) := by
  obtain ⟨hinside, close, arrow, hclose, harrow, rfl⟩ := h
  simp [Grammar.arrowFunction, params, accept_cons, hopen, paramNames_inside hinside hclose, hclose, harrow]

theorem arrowBody_apply (ts : List Token) : Grammar.arrowBody readers ts =
    if ts.head?.map (·.lexeme) = some (punct braceOpen) then block ts else expr ts := by
  rw [block_eq]
  by_cases hbrace : ts.head?.map (·.lexeme) = some (punct braceOpen) <;> simp [Grammar.arrowBody, sees, hbrace]

/-- Behind an opening parenthesis, `arrowAhead` finds an arrow exactly where at most eighteen names and commas, a
closing parenthesis and the arrow stand. Then an arrow function is read, whose parameters are these names in order and
whose body is the block or the expression behind the arrow. -/
theorem arrowAhead_parenOpen (line column : Nat) (rest : List Token) :
    let ts : List Token := ⟨punct parenOpen, line, column⟩ :: rest
    ((arrowAhead ts).1 = true ↔ ∃ inside behind, inside.length ≤ 18 ∧ ArrowHead rest inside behind) ∧
      ∀ inside behind, inside.length ≤ 18 → ArrowHead rest inside behind →
        ∃ body left,
          (if behind.head?.map (·.lexeme) = some (punct braceOpen) then block behind else expr behind) = (body, left) ∧
          primary ts = (.arrow (some (line : Int)) (some (inside.filterMap (·.lexeme.name?))) body false, left) := by
  intro ts
  have hahead {inside behind : List Token} (hlength : inside.length ≤ 18) (hhead : ArrowHead rest inside behind) :
      (arrowAhead ts).1 = true := namesThenArrow_of_arrowHead (Nat.lt_succ_of_le hlength) hhead
  refine ⟨⟨?_, ?_⟩, ?_⟩
  · intro h
    obtain ⟨inside, behind, hlength, hhead⟩ := exists_arrowHead (h : namesThenArrow 19 rest = true)
    exact ⟨inside, behind, Nat.le_of_lt_succ hlength, hhead⟩
  · rintro ⟨inside, behind, hlength, hhead⟩
    exact hahead hlength hhead
  · intro inside behind hlength hhead
    refine ⟨_, _, (arrowBody_apply behind).symm, ?_⟩
    have hprimary : primary ts = Grammar.parenthesized readers (some (line : Int)) ts := by
      rw [primary_eq]
      rfl
    rw [hprimary, Grammar.parenthesized, bind_apply, if_pos (hahead hlength hhead)]
    exact arrowFunction_arrowHead hhead rfl _ false

example : (arrowAhead (atFront (punct parenOpen :: List.replicate 18 (punct comma) ++ [punct parenClose, op "=>"]))).1 =
    true := by decide

example : (arrowAhead (atFront (punct parenOpen :: List.replicate 19 (punct comma) ++ [punct parenClose, op "=>"]))).1 =
    false := by decide

end Parse

end HindiScript

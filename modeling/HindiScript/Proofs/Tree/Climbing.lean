import HindiScript.Proofs.Tree.Reading
import Mathlib.Data.List.TakeWhile

/-!
# Operators group as they bind

A series is an operand, an operator, an operand, and so on, with operands of one token. Read above a floor, it is
taken up to the first operator that does not bind more tightly than the floor. What is read is a tree with these
tokens from left to right, in which no operator holds a looser one on its left, or a looser or equal one on its
right; and there is only one such tree (`operand_series`).
-/

namespace HindiScript

open Lexeme

/-! ## Series -/

/-- The token is an operand by itself. -/
def Lexeme.isAtom : Lexeme → Bool
  | number _ | string _ | ident _ => true
  | _ => false

/-- How tightly the token binds as an operator; what is no binary operator binds least. -/
def Lexeme.binding : Lexeme → Nat
  | op symbol => precedence symbol
  | _ => 0

/-- A binary operator and the operand behind it. -/
structure Operation where
  operator : Token
  operand : Token
  binds : 0 < operator.lexeme.binding
  atom : operand.lexeme.isAtom = true

/-- An operand and the operators and operands that follow it. -/
structure Series where
  first : Token
  ops : List Operation
  atom : first.lexeme.isAtom = true

namespace Operation

/-- The operator binds more tightly than `floor`. -/
def above (floor : Int) (l : Operation) : Bool := floor < l.operator.lexeme.binding

def tokens (ops : List Operation) : List Token := ops.flatMap fun l => [l.operator, l.operand]

@[simp] theorem tokens_nil : tokens [] = [] := rfl

@[simp] theorem tokens_cons (l : Operation) (ops : List Operation) :
    tokens (l :: ops) = l.operator :: l.operand :: tokens ops := rfl

@[simp] theorem tokens_append (ops ops' : List Operation) : tokens (ops ++ ops') = tokens ops ++ tokens ops' :=
  List.flatMap_append

end Operation

namespace Series

variable (s : Series)

def tokens : List Token := s.first :: Operation.tokens s.ops

/-- The series up to the first operator that is not `above` the floor. -/
def before (floor : Int) : Series := { s with ops := s.ops.takeWhile (Operation.above floor) }

/-- What follows `before`, from this operator on. -/
def behind (floor : Int) : List Operation := s.ops.dropWhile (Operation.above floor)

theorem precedence_pos {symbol : String} (h : op symbol ∈ s.tokens.map (·.lexeme)) : 0 < precedence symbol := by
  obtain ⟨tok, htok, hop⟩ := List.mem_map.1 h
  have hatom : tok.lexeme.isAtom ≠ true := by simp [hop, isAtom]
  rcases List.mem_cons.1 htok with rfl | htok
  · exact absurd s.atom hatom
  · obtain ⟨l, -, htok⟩ := List.mem_flatMap.1 htok
    simp only [List.mem_cons, List.not_mem_nil, or_false] at htok
    rcases htok with rfl | rfl
    · have := l.binds
      rwa [hop] at this
    · exact absurd l.atom hatom

end Series

/-! ## Trees of operators -/

/-- From left to right, the operands and operators of the tree are these tokens. -/
inductive InOrder : Node → List Lexeme → Prop where
  | number {line} {value : Nat} : InOrder (.literal line (.number value)) [number value]
  | string {line text} : InOrder (.literal line (.string text)) [string text]
  | ident {line name} : InOrder (.ident line name) [ident name]
  | binary {line symbol left right ls ms} :
    InOrder left ls → InOrder right ms → InOrder (.binary line symbol left right) (ls ++ op symbol :: ms)

namespace Node

/-- How tightly the operator at the top binds, if there is one. -/
def binding? : Node → Option Nat
  | binary _ symbol _ _ => some (precedence symbol)
  | _ => none

/-- If the node is an operator, it holds no looser operator on its left, and no looser or equal one on its right. -/
def holdsTogether : Node → Bool
  | binary _ symbol left right =>
    left.binding?.all (precedence symbol ≤ ·) && right.binding?.all (precedence symbol < ·)
  | _ => true

/-- Every operator of the tree `holdsTogether` what it should. -/
def Grouped (e : Node) : Prop := ∀ n ∈ e :: e.descendants, n.holdsTogether = true

theorem grouped_of_children {e : Node} (he : e.holdsTogether = true) (h : ∀ c ∈ e.children, c.Grouped) : e.Grouped := by
  intro n hn
  rcases List.mem_cons.1 hn with rfl | hn
  · exact he
  · rw [descendants_eq] at hn
    obtain ⟨c, hc, hn⟩ := List.mem_flatMap.1 hn
    exact h c hc n hn

theorem Grouped.child {e c : Node} (h : e.Grouped) (hc : c ∈ e.children) : c.Grouped := by
  intro n hn
  refine h n (List.mem_cons_of_mem _ ?_)
  rw [descendants_eq]
  exact List.mem_flatMap.2 ⟨c, hc, hn⟩

end Node

theorem InOrder.isMissing {e : Node} {ls : List Lexeme} (h : InOrder e ls) : e.isMissing = false := by
  cases h <;> rfl

section

variable {floor : Int} {line : Option Int} {symbol : String} {e left right : Node} {ls ms : List Lexeme}

theorem holdsTogether_binary : (Node.binary line symbol left right).holdsTogether = true ↔
    (∀ p ∈ left.binding?, precedence symbol ≤ p) ∧ ∀ p ∈ right.binding?, precedence symbol < p := by
  simp [Node.holdsTogether, Option.all_eq_true]

theorem children_binary (line : Option Int) (symbol : String) (hl : left.isMissing = false)
    (hr : right.isMissing = false) : (Node.binary line symbol left right).children = [left, right] := by
  simp [Node.children, Node.children.present, hl, hr]

/-! ## One tree at most -/

/-- A `Grouped` tree is written by its tokens, without parentheses. -/
theorem InOrder.written (h : InOrder e ls) (hg : e.Grouped) (hpos : ∀ symbol, op symbol ∈ ls → 0 < precedence symbol)
    {level : Nat} (hl : ∀ p ∈ e.binding?, level ≤ p) : Written (.operand level e) ls := by
  induction h generalizing level with
  | number => exact .ofUnary .number
  | string => exact .ofUnary .string
  | ident => exact .ofUnary (.ofChain .ident)
  | @binary line symbol left right ls ms hleft hright ihl ihr =>
    obtain ⟨hlooser, htighter⟩ := holdsTogether_binary.1 (hg _ List.mem_cons_self)
    have hchildren := children_binary line symbol hleft.isMissing hright.isMissing
    have gl : left.Grouped := hg.child (by simp [hchildren])
    have gr : right.Grouped := hg.child (by simp [hchildren])
    exact .binary (hpos symbol (by simp)) (hl _ rfl) (ihl gl (fun s hs => hpos s (by simp [hs])) hlooser)
      (ihr gr (fun s hs => hpos s (by simp [hs])) htighter)

theorem operand_of_inOrder (h : InOrder e ls) (hg : e.Grouped)
    (hpos : ∀ symbol, op symbol ∈ ls → 0 < precedence symbol) : Parse.operand 0 (atFront ls) = (e.atFront, []) := by
  have hl : ∀ p ∈ e.binding?, 1 ≤ p := by
    cases h with
    | binary => rintro _ ⟨⟩; exact hpos _ (by simp)
    | _ => rintro _ ⟨⟩
  have := (h.written hg hpos hl).reads 0 [] Nat.one_pos (Ends.nil.fits 1)
  rw [List.append_nil] at this
  exact this.trans (Parse.operators_fits le_rfl (Ends.nil.fits 0))

/-- Two grouped trees with the same tokens are the same up to their lines, since both are read from them. -/
theorem unlined_eq_of_inOrder {e' : Node} (h : InOrder e ls) (h' : InOrder e' ls) (hg : e.Grouped) (hg' : e'.Grouped)
    (hpos : ∀ symbol, op symbol ∈ ls → 0 < precedence symbol) : e'.unlined = e.unlined := by
  have heq := (operand_of_inOrder h' hg' hpos).symm.trans (operand_of_inOrder h hg hpos)
  have := congrArg Node.unlined (Prod.mk.inj heq).1
  rwa [Node.atFront, Node.atFront, Node.unlined_relined, Node.unlined_relined] at this

/-! ## Climbing -/

/-- What has been read above `floor`: the tokens `ls` in order, grouped, and no operator at the top that the floor
excludes. -/
structure Climbed (floor : Int) (ls : List Lexeme) (e : Node) : Prop where
  inOrder : InOrder e ls
  grouped : e.Grouped
  above : ∀ p ∈ e.binding?, floor < p

/-- An operator takes what was read as its left operand, if it does not bind more tightly than that. -/
theorem Climbed.binary (line : Option Int) (hleft : Climbed floor ls left) (hs : floor < precedence symbol)
    (hnext : ∀ p ∈ left.binding?, precedence symbol ≤ p) (hright : Climbed (precedence symbol) ms right) :
    Climbed floor (ls ++ op symbol :: ms) (.binary line symbol left right) where
  inOrder := .binary hleft.inOrder hright.inOrder
  grouped := by
    have htighter : ∀ p ∈ right.binding?, precedence symbol < p := fun p hp => Int.ofNat_lt.1 (hright.above p hp)
    refine Node.grouped_of_children (holdsTogether_binary.2 ⟨hnext, htighter⟩) ?_
    rw [children_binary _ _ hleft.inOrder.isMissing hright.inOrder.isMissing]
    simp [hleft.grouped, hright.grouped]
  above := by
    rintro _ ⟨⟩
    exact hs

end

theorem Operation.exists_operator (l : Operation) :
    ∃ symbol line column, l.operator = ⟨op symbol, line, column⟩ ∧ 0 < precedence symbol := by
  obtain ⟨⟨lexeme, line, column⟩, _, hbinds, _⟩ := l
  cases lexeme with
  | op symbol => exact ⟨symbol, line, column, rfl, hbinds⟩
  | _ => cases hbinds

theorem Operation.fits (ops : List Operation) : Fits maxPrecedence (Operation.tokens ops) := by
  cases ops with
  | nil => rintro _ ⟨⟩
  | cons l ops =>
    obtain ⟨symbol, line, column, hl, hpos⟩ := l.exists_operator
    have hne : symbol ≠ "=>" := by
      rintro rfl
      cases hpos
    exact .cons (by simp [hl, carriesOn, hne, precedence_le]) _

/-- An operand of one token is read by itself where an operator or the end stands behind it. -/
theorem unary_atom {tok : Token} (h : tok.lexeme.isAtom = true) (ops : List Operation) :
    ∃ e, Parse.unary (tok :: Operation.tokens ops) = (e, Operation.tokens ops) ∧ e.binding? = none ∧
      ∀ floor, Climbed floor [tok.lexeme] e := by
  obtain ⟨l, line, column⟩ := tok
  have hleaf {e : Node} (hc : e.children = []) (hh : e.holdsTogether = true) (hb : e.binding? = none)
      (hi : InOrder e [l]) (floor : Int) : Climbed floor [l] e :=
    ⟨hi, Node.grouped_of_children hh (by simp [hc]), by simp [hb]⟩
  cases l with
  | number value => exact ⟨_, Parse.unary_number value _, rfl, hleaf rfl rfl rfl .number⟩
  | string text => exact ⟨_, Parse.unary_string text _, rfl, hleaf rfl rfl rfl .string⟩
  | ident name =>
    refine ⟨.ident (some (line : Int)) name, ?_, rfl, hleaf rfl rfl rfl .ident⟩
    exact (Parse.unary_ident name _).trans (Parse.chain_fits (Operation.fits ops))
  | _ => cases h

/-- Operators above a floor begin with those above a higher one. -/
theorem Operation.split_above {floor floor' : Int} (h : floor ≤ floor') (ops : List Operation) :
    ops.takeWhile (above floor) =
        ops.takeWhile (above floor') ++ (ops.dropWhile (above floor')).takeWhile (above floor) ∧
      ops.dropWhile (above floor) = (ops.dropWhile (above floor')).dropWhile (above floor) := by
  have hall : ∀ l ∈ ops.takeWhile (above floor'), above floor l = true := by
    intro l hl
    have : above floor' l = true := List.mem_takeWhile_imp hl
    simp only [above, decide_eq_true_eq] at this ⊢
    omega
  constructor
  · rw [← List.takeWhile_append_of_pos hall, List.takeWhile_append_dropWhile]
  · calc ops.dropWhile (above floor)
        = (ops.takeWhile (above floor') ++ ops.dropWhile (above floor')).dropWhile (above floor) := by
          rw [List.takeWhile_append_dropWhile]
      _ = (ops.dropWhile (above floor')).dropWhile (above floor) := List.dropWhile_append_of_pos hall

theorem Operation.binding_le_of_mem_head?_dropWhile {floor : Nat} {ops : List Operation} {l : Operation}
    (h : l ∈ (ops.dropWhile (above floor)).head?) : l.operator.lexeme.binding ≤ floor := by
  have := List.head?_dropWhile_not (above floor) ops
  rw [Option.mem_def.1 h] at this
  simpa [above] using this

/-- The operators above `floor` are taken, each with a right operand that holds the tighter operators behind it. -/
theorem operators_operations {floor : Int} {ls : List Lexeme} {left : Node} (ops : List Operation)
    (h : Climbed floor ls left)
    (hnext : ∀ l ∈ ops.head?, ∀ p ∈ left.binding?, l.operator.lexeme.binding ≤ p) :
    ∃ e, Parse.operators floor left (Operation.tokens ops) =
        (e, Operation.tokens (ops.dropWhile (Operation.above floor))) ∧
      Climbed floor (ls ++ (Operation.tokens (ops.takeWhile (Operation.above floor))).map (·.lexeme)) e := by
  match ops with
  | [] => exact ⟨left, rfl, by simpa using h⟩
  | l :: ops =>
    obtain ⟨symbol, line, column, hl, -⟩ := l.exists_operator
    have hbinding : l.operator.lexeme.binding = precedence symbol := by rw [hl]; rfl
    by_cases habove : floor < precedence symbol
    · -- The right operand takes the operators that bind more tightly than this one.
      obtain ⟨atom, hunary, hnone, hatom⟩ := unary_atom l.atom ops
      obtain ⟨right, hoperators, hright⟩ := operators_operations ops (hatom (precedence symbol)) (by simp [hnone])
      have hoperand := (Parse.operand_of_unary _ hunary (hatom 0).inOrder.isMissing).trans hoperators
      -- Those behind it find a left operand that ends in this operator, and none of them binds more tightly.
      have hleft := h.binary (some line) habove (fun p hp => hbinding ▸ hnext l rfl p hp) hright
      obtain ⟨e, he, hclimbed⟩ := operators_operations (ops.dropWhile (Operation.above (precedence symbol))) hleft (by
        rintro l' hl' _ ⟨⟩
        exact Operation.binding_le_of_mem_head?_dropWhile hl')
      obtain ⟨htake, hdrop⟩ := Operation.split_above (Int.le_of_lt habove) ops
      have hl' : l.above floor = true := by simpa [Operation.above, hbinding] using habove
      refine ⟨e, ?_, ?_⟩
      · rw [Operation.tokens_cons, hl, Parse.operators_op habove hoperand, he, List.dropWhile_cons_of_pos hl', hdrop]
      · rw [List.takeWhile_cons_of_pos hl', htake]
        simpa [hl] using hclimbed
    · have hl' : ¬ l.above floor = true := by simpa [Operation.above, hbinding] using habove
      rw [List.dropWhile_cons_of_neg hl', List.takeWhile_cons_of_neg hl', Operation.tokens_cons, hl]
      exact ⟨left, Parse.operators_looser (by omega) _, by simpa using h⟩
termination_by ops.length
decreasing_by
  · simp
  · have := List.length_dropWhile_le (Operation.above (precedence symbol)) ops
    simp only [List.length_cons]
    omega

/-! ## Series that are read -/

/-- Above `floor`, a series is read up to the first operator that does not bind more tightly. The tree that is read
has these tokens `InOrder` and is `Grouped`, and up to the lines it is the only such tree. -/
theorem operand_series (floor : Int) (s : Series) :
    ∃ e, Parse.operand floor s.tokens = (e, Operation.tokens (s.behind floor)) ∧
      InOrder e ((s.before floor).tokens.map (·.lexeme)) ∧ e.Grouped ∧
      ∀ e', InOrder e' ((s.before floor).tokens.map (·.lexeme)) → e'.Grouped → e'.unlined = e.unlined := by
  obtain ⟨atom, hunary, hnone, hatom⟩ := unary_atom s.atom s.ops
  obtain ⟨e, he, hclimbed⟩ := operators_operations s.ops (hatom floor) (by simp [hnone])
  have hread := (Parse.operand_of_unary floor hunary (hatom floor).inOrder.isMissing).trans he
  refine ⟨e, hread, hclimbed.inOrder, hclimbed.grouped, fun e' h' hg' => ?_⟩
  exact unlined_eq_of_inOrder hclimbed.inOrder h' hclimbed.grouped hg' fun _ => (s.before floor).precedence_pos

example : Parse.operand 1 [⟨ident "a", 1, 1⟩, ⟨op "-", 1, 3⟩, ⟨number 2, 1, 5⟩, ⟨op "*", 1, 7⟩, ⟨ident "b", 1, 9⟩,
      ⟨op "-", 1, 11⟩, ⟨string "c", 1, 13⟩, ⟨op "||", 1, 17⟩, ⟨ident "d", 1, 20⟩] =
    (.binary (some 1) "-"
        (.binary (some 1) "-" (.ident (some 1) "a")
          (.binary (some 1) "*" (.literal (some 1) (.number 2)) (.ident (some 1) "b")))
        (.literal (some 1) (.string "c")),
      [⟨op "||", 1, 17⟩, ⟨ident "d", 1, 20⟩]) := rfl

end HindiScript

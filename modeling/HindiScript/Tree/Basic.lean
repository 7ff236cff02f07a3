/-!
# Program trees

A program is a tree of nodes. One type holds every kind of node, so that a tree can also be built by
hand with any node in any place; `Node.missing` stands where the source left a part out. Main
statement: `Node.descendants_eq`, the nodes below a node are its children, each followed by the nodes
below it.
-/

namespace HindiScript

/-- A constant in the source. -/
inductive Literal where
  | null
  | boolean (value : Bool)
  | number (value : Int)
  | string (text : String)
  deriving DecidableEq, Repr

/-- A node of a program tree. The first field of each kind is the line of its first token, where it
is known; a tree that is built by hand may hold any number there. -/
inductive Node where
  /-- A part that was left out or could not be read. -/
  | missing
  | program (line : Option Int) (body : List Node)
  /-- A declaration of a variable. A constant has the kind `const`. -/
  | variableDecl (line : Option Int) (name : Option String) (value : Node) (kind : String)
  | printStmt (line : Option Int) (value : Node)
  | ifStmt (line : Option Int) (test consequent alternate : Node)
  | whileStmt (line : Option Int) (test body : Node)
  | forStmt (line : Option Int) (init test update body : Node)
  | returnStmt (line : Option Int) (value : Node)
  | breakStmt (line : Option Int)
  | continueStmt (line : Option Int)
  | block (line : Option Int) (body : List Node)
  /-- An expression that stands as a statement. -/
  | exprStmt (line : Option Int) (value : Node)
  | functionDecl (line : Option Int) (name : Option String) (params : Option (List String))
      (body : Node) (isAsync : Bool)
  /-- An import. One without a list of names only runs the module. -/
  | importDecl (line : Option Int) (source : Option String) (names : Option (List String))
  | exportDecl (line : Option Int) (declaration : Node) (names : Option (List String))
  | binary (line : Option Int) (operator : String) (left right : Node)
  | assign (line : Option Int) (target value : Node)
  | await (line : Option Int) (value : Node)
  | arrow (line : Option Int) (params : Option (List String)) (body : Node) (isAsync : Bool)
  | call (line : Option Int) (callee : Node) (args : Option (List Node))
  | member (line : Option Int) (object property : Node)
  | literal (line : Option Int) (value : Literal)
  | ident (line : Option Int) (name : String)
  deriving Repr, Inhabited

namespace Node

/-! ## Kinds of nodes -/

def isMissing : Node → Bool
  | missing => true
  | _ => false

/-- The node stands for something that is done. -/
def isStatement : Node → Bool
  | variableDecl .. | printStmt .. | ifStmt .. | whileStmt .. | forStmt .. | returnStmt ..
  | breakStmt .. | continueStmt .. | block .. | exprStmt .. | functionDecl .. | importDecl ..
  | exportDecl .. => true
  | _ => false

/-- The node stands for a value. -/
def isExpression : Node → Bool
  | binary .. | assign .. | await .. | arrow .. | call .. | member .. | literal .. | ident .. => true
  | _ => false

def isImport : Node → Bool
  | importDecl .. => true
  | _ => false

/-- The line that the node carries. -/
def line : Node → Option Int
  | missing => none
  | program line _ | variableDecl line .. | printStmt line _ | ifStmt line .. | whileStmt line ..
  | forStmt line .. | returnStmt line _ | breakStmt line | continueStmt line | block line _
  | exprStmt line _ | functionDecl line .. | importDecl line .. | exportDecl line .. | binary line ..
  | assign line .. | await line _ | arrow line .. | call line .. | member line .. | literal line _
  | ident line _ => line

/-- The name that a declaration or an identifier has. -/
def name? : Node → Option String
  | variableDecl _ name _ _ => name
  | functionDecl _ name _ _ _ => name
  | ident _ name => some name
  | _ => none

/-- The statements of a `block` or a `program`. -/
def body : Node → List Node
  | program _ body => body
  | block _ body => body
  | _ => []

/-! ## The nodes below a node -/

/-- The nodes directly below a node, in the order in which they are written; what `isMissing` is left out. -/
def children : Node → List Node
  | missing | breakStmt _ | continueStmt _ | importDecl .. | literal .. | ident .. => []
  | program _ body | block _ body => present body
  | variableDecl _ _ value _ | printStmt _ value | returnStmt _ value | exprStmt _ value
  | await _ value => present [value]
  | ifStmt _ test consequent alternate => present [test, consequent, alternate]
  | whileStmt _ test body => present [test, body]
  | forStmt _ init test update body => present [init, test, update, body]
  | functionDecl _ _ _ body _ | arrow _ _ body _ => present [body]
  | exportDecl _ declaration _ => present [declaration]
  | binary _ _ left right => present [left, right]
  | assign _ target value => present [target, value]
  | call _ callee args => present (callee :: args.getD [])
  | member _ object property => present [object, property]
where
  /-- The nodes that are not missing. -/
  present (nodes : List Node) : List Node := nodes.filter (!·.isMissing)

theorem mem_of_mem_present {c : Node} {l : List Node} (h : c ∈ children.present l) : c ∈ l :=
  (List.mem_filter.mp h).1

theorem sizeOf_lt_of_mem_children {n c : Node} (h : c ∈ n.children) : sizeOf c < sizeOf n := by
  cases n <;> simp only [children, List.not_mem_nil] at h <;> replace h := mem_of_mem_present h
  case program | block =>
    have := List.sizeOf_lt_of_mem h
    simp
    omega
  case call args =>
    cases args with
    | none =>
      obtain rfl := List.mem_singleton.mp h
      simp only [call.sizeOf_spec]
      omega
    | some args =>
      rcases List.mem_cons.mp h with rfl | h
      · simp; omega
      · have : sizeOf c < sizeOf args := List.sizeOf_lt_of_mem h
        simp
        omega
  all_goals
    simp only [List.mem_cons, List.not_mem_nil, or_false] at h
    simp
    grind

/-- All nodes below `n`, each before the nodes below it. -/
def descendants (n : Node) : List Node :=
  n.children.attach.flatMap fun ⟨c, _⟩ => c :: descendants c
termination_by sizeOf n
decreasing_by exact sizeOf_lt_of_mem_children ‹_›

theorem descendants_eq (n : Node) : n.descendants = n.children.flatMap fun c => c :: c.descendants := by
  rw [descendants]
  simp [List.flatMap_subtype]

end Node

end HindiScript

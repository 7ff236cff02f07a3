import HindiScript.Json.Writer
import HindiScript.Tree.Basic

/-!
# Showing a tree

A tree as a value with named fields, and as the indented listing that shows what was read. Lines are left
out of both.
-/

namespace HindiScript

def Literal.toJson : Literal → Json
  | .null => .null
  | .boolean value => .bool value
  | .number value => .int value
  | .string text => .str text

namespace Node

/-- A text, or null where there is none. -/
def textField (s : Option String) : Json := s.elim .null .str

/-- Names, or null where there is no list. -/
def namesField (names : Option (List String)) : Json := names.elim .null fun l => .arr (l.map .str)

/-- A node of a `kind`, with its `fields`. -/
def kindWith (kind : String) (fields : List (String × Json)) : Json :=
  .obj (("type", .str kind) :: fields)

mutual

def toJson : Node → Json
  | missing => .null
  | program _ body => kindWith "Program" [("body", .arr (toJsons body))]
  | variableDecl _ name value kind =>
    kindWith "VariableDeclaration"
      [("name", textField name), ("value", value.toJson), ("kind", .str kind)]
  | printStmt _ value => kindWith "PrintStatement" [("expression", value.toJson)]
  | ifStmt _ test consequent alternate =>
    kindWith "IfStatement"
      [("test", test.toJson), ("consequent", consequent.toJson), ("alternate", alternate.toJson)]
  | whileStmt _ test body => kindWith "WhileStatement" [("test", test.toJson), ("body", body.toJson)]
  | forStmt _ init test update body =>
    kindWith "ForStatement"
      [("init", init.toJson), ("test", test.toJson), ("update", update.toJson), ("body", body.toJson)]
  | returnStmt _ value => kindWith "ReturnStatement" [("argument", value.toJson)]
  | breakStmt _ => kindWith "BreakStatement" []
  | continueStmt _ => kindWith "ContinueStatement" []
  | block _ body => kindWith "BlockStatement" [("body", .arr (toJsons body))]
  | exprStmt _ value => kindWith "ExpressionStatement" [("expression", value.toJson)]
  | functionDecl _ name params body isAsync =>
    kindWith "FunctionDeclaration"
      [("name", textField name), ("params", namesField params), ("body", body.toJson),
        ("is_async", .bool isAsync)]
  | importDecl _ source names =>
    kindWith "ImportDeclaration" [("source", textField source), ("specifiers", namesField names)]
  | exportDecl _ declaration names =>
    kindWith "ExportNamedDeclaration"
      [("declaration", declaration.toJson), ("specifiers", namesField names)]
  | binary _ operator left right =>
    kindWith "BinaryExpression"
      [("operator", .str operator), ("left", left.toJson), ("right", right.toJson)]
  | assign _ target value =>
    kindWith "AssignmentExpression" [("target", target.toJson), ("value", value.toJson)]
  | await _ value => kindWith "AwaitExpression" [("argument", value.toJson)]
  | arrow _ params body isAsync =>
    kindWith "ArrowFunctionExpression"
      [("params", namesField params), ("body", body.toJson), ("is_async", .bool isAsync)]
  | call _ callee none => kindWith "CallExpression" [("callee", callee.toJson), ("arguments", .null)]
  | call _ callee (some args) =>
    kindWith "CallExpression" [("callee", callee.toJson), ("arguments", .arr (toJsons args))]
  | member _ object property =>
    kindWith "MemberExpression" [("object", object.toJson), ("property", property.toJson)]
  | literal _ value => kindWith "Literal" [("value", value.toJson)]
  | ident _ name => kindWith "Identifier" [("name", .str name)]

def toJsons : List Node → List Json
  | [] => []
  | node :: rest => node.toJson :: toJsons rest

end

/-- The tree as a listing: `Json.outline` of its `toJson`. -/
def outline (node : Node) : String := node.toJson.outline 0

end Node

end HindiScript

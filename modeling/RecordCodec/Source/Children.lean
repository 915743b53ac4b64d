import RecordCodec.Source.Tree

/-!
This module contains the walk over the parts of expressions and statements.
-/

namespace RecordCodec.Source

inductive Node where
  | expr (x : Expr)
  | stmt (s : Stmt)

namespace Node

def ofEntries (list : EntryList Expr) : List Node :=
  list.entries.map fun e => expr e.type

def ofSignature (sig : Signature Expr) : List Node :=
  (sig.typeParams.toList ++ [sig.params] ++ sig.results.toList).flatMap ofEntries

def ofSpec : Spec Expr → List Node
  | .imported .. => []
  | .value _ type values _ => (type.toList ++ values).map expr
  | .type _ typeParams _ type => typeParams.toList.flatMap ofEntries ++ [expr type]

def ofExpr : Expr → List Node
  | .name _ | .literal .. => []
  | .dots _ elem => elem.toList.map expr
  | .function sig body => ofSignature sig ++ body.stmts.map stmt
  | .composite type _ elems _ => (type.toList ++ elems).map expr
  | .paren _ x _ | .select x _ | .star _ x | .unary _ _ x | .channel _ _ _ x => [expr x]
  | .index x _ indices _ => (x :: indices).map expr
  | .slice x _ low high bound _ => ([x] ++ low.toList ++ high.toList ++ bound.toList).map expr
  | .assert x _ type _ => (x :: type.toList).map expr
  | .call f _ args _ _ => (f :: args).map expr
  | .binary x _ _ y | .pair x _ y | .map _ x y => [expr x, expr y]
  | .array _ length elem => (length.toList ++ [elem]).map expr
  | .struct _ list | .interface _ list => ofEntries list
  | .signature sig => ofSignature sig

def ofStmt : Stmt → List Node
  | .declare group => group.specs.flatMap ofSpec
  | .empty _ | .branch .. => []
  | .labeled _ _ s => [stmt s]
  | .expr x | .step x _ _ | .launch _ _ x => [expr x]
  | .send channel _ value => [expr channel, expr value]
  | .assign lhs _ _ rhs => (lhs ++ rhs).map expr
  | .giveBack _ results => results.map expr
  | .block body | .select _ body => body.stmts.map stmt
  | .choose _ init cond body otherwise =>
    init.toList.map stmt ++ [expr cond] ++ (body.stmts ++ otherwise.toList).map stmt
  | .clause _ exprs _ body => exprs.map expr ++ body.map stmt
  | .switch _ init tag body => init.toList.map stmt ++ tag.toList.map expr ++ body.stmts.map stmt
  | .typeSwitch _ init guard body => (init.toList ++ [guard] ++ body.stmts).map stmt
  | .communicate _ comm _ body => (comm.toList ++ body).map stmt
  | .loop _ init cond post body =>
    init.toList.map stmt ++ cond.toList.map expr ++ (post.toList ++ body.stmts).map stmt
  | .range _ key value _ _ x body =>
    (key.toList ++ value.toList ++ [x]).map expr ++ body.stmts.map stmt

def children : Node → List Node
  | expr x => ofExpr x
  | stmt s => ofStmt s

/--
Whether a node holds a composite literal that starts with a type name and is not in parentheses.
`fuel` bounds the depth.
-/
def exposesLiteral : (fuel : Nat) → Node → Bool
  | 0, _ => false
  | fuel + 1, node =>
    match node with
    | expr (.paren ..) => false
    | expr (.composite type _ _ _) => type.any Expr.isTypeName
    | node => node.children.any (exposesLiteral fuel)

end Node

/--
An expression in the header of a statement without the parentheses around it. They stay if a
composite literal would be read as the body of the statement.
-/
def Expr.unparenHeader (fuel : Nat) : Expr → Expr
  | .paren opening x closing =>
    if (Node.expr x).exposesLiteral fuel then .paren opening x closing else x.unparenHeader fuel
  | x => x

end RecordCodec.Source

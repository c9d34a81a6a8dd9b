/-!
# Formula trees

A formula is a tree of literals, names, calls and operators.  Compilation
replaces each name by a binding, which reads one element of a named context
value, and each conditional call by a conditional node.

Main definitions:

- `Expr`: the tree, with `Expr.kind`, `Expr.children`, `Expr.depth`,
  `Expr.any` and `Expr.calls`.
- `Binding`: a read of one element of a context value.
-/

namespace Formulary

/-- A constant. -/
inductive Literal where
  | int (value : Int64)
  | float (value : Float)
  | text (value : String)
  | bool (value : Bool)
  | null
  deriving BEq, Inhabited

/-- The four arithmetic operators. -/
inductive ArithOp where
  | add | sub | mul | div
  deriving DecidableEq, Inhabited

/-- The six comparison operators. -/
inductive Comparison where
  | eq | ne | lt | le | gt | ge
  deriving DecidableEq, Inhabited

/-- The two connectives of a boolean chain. -/
inductive Connective where
  | and | or
  deriving DecidableEq, Inhabited

/-- The element of a context value that a binding reads. -/
inductive Subscript where
  | index (position : Int64)
  | key (name : String)
  deriving DecidableEq, Inhabited

/-- A read of one element of the context value `context`. -/
structure Binding where
  context : String
  subscript : Subscript
  deriving DecidableEq, Inhabited

/-- A formula. -/
inductive Expr where
  | literal (value : Literal)
  | name (ident : String)
  | attr (base member : String)
  | call (function : String) (args : List Expr)
  | negate (operand : Expr)
  | not (operand : Expr)
  | arith (op : ArithOp) (left right : Expr)
  | compare (op : Comparison) (left right : Expr)
  | logic (op : Connective) (operands : List Expr)
  | conditional (condition thenBranch elseBranch : Expr)
  | binding (read : Binding)
  deriving BEq, Inhabited

/-- The operator as a formula writes it. -/
def ArithOp.symbol : ArithOp → String
  | .add => "+"
  | .sub => "-"
  | .mul => "*"
  | .div => "/"

/-- The operator as a formula writes it. -/
def Comparison.symbol : Comparison → String
  | .eq => "=="
  | .ne => "!="
  | .lt => "<"
  | .le => "<="
  | .gt => ">"
  | .ge => ">="

/-- The connective as a formula writes it. -/
def Connective.symbol : Connective → String
  | .and => "and"
  | .or => "or"

namespace Expr

/-- Short name of the kind of node, as error messages give it. -/
def kind : Expr → String
  | literal _ => "literal"
  | name _ => "name"
  | attr _ _ => "attribute"
  | call _ _ => "function call"
  | negate _ => "negation"
  | not _ => "logical not"
  | arith _ _ _ => "arithmetic operation"
  | compare _ _ _ => "comparison"
  | logic _ _ => "boolean operation"
  | conditional _ _ _ => "conditional"
  | binding _ => "binding"

/-- Whether the node is a condition by construction: a comparison, a boolean
chain or a constant.  A `not` is none, since it negates the truth of anything. -/
def isCondition : Expr → Bool
  | compare _ _ _ => true
  | logic _ _ => true
  | literal _ => true
  | _ => false

/-- Direct children, left to right. -/
def children : Expr → List Expr
  | call _ args => args
  | negate e => [e]
  | not e => [e]
  | arith _ l r => [l, r]
  | compare _ l r => [l, r]
  | logic _ operands => operands
  | conditional c t e => [c, t, e]
  | _ => []

mutual

/-- Height of the tree; a leaf has height one. -/
def depth : Expr → Nat
  | literal _ => 1
  | name _ => 1
  | attr _ _ => 1
  | call _ args => depthMax args + 1
  | negate e => depth e + 1
  | not e => depth e + 1
  | arith _ l r => max (depth l) (depth r) + 1
  | compare _ l r => max (depth l) (depth r) + 1
  | logic _ operands => depthMax operands + 1
  | conditional c t e => max (depth c) (max (depth t) (depth e)) + 1
  | binding _ => 1

/-- Height of the highest tree of a list, zero for none. -/
def depthMax : List Expr → Nat
  | [] => 0
  | e :: es => max (depth e) (depthMax es)

end

mutual

/-- Whether `p` holds of this node or of one below it. -/
def any (p : Expr → Bool) : Expr → Bool
  | literal l => p (literal l)
  | name n => p (name n)
  | attr b m => p (attr b m)
  | call f args => p (call f args) || anyOf p args
  | negate e => p (negate e) || any p e
  | not e => p (not e) || any p e
  | arith op l r => p (arith op l r) || any p l || any p r
  | compare op l r => p (compare op l r) || any p l || any p r
  | logic op operands => p (logic op operands) || anyOf p operands
  | conditional c t e => p (conditional c t e) || any p c || any p t || any p e
  | binding b => p (binding b)

/-- Whether `p` holds of a node of one of the trees. -/
def anyOf (p : Expr → Bool) : List Expr → Bool
  | [] => false
  | e :: es => any p e || anyOf p es

end

/-- Whether the node itself is a call of `function`. -/
def isCallOf (function : String) : Expr → Bool
  | call f _ => f == function
  | _ => false

/-- Whether the tree calls `function` anywhere. -/
def calls (e : Expr) (function : String) : Bool :=
  e.any (isCallOf function)

/-- The height of a list is the height of its highest member. -/
theorem depth_le_depthMax {e : Expr} {es : List Expr} (h : e ∈ es) :
    depth e ≤ depthMax es := by
  induction es with
  | nil => cases h
  | cons x xs ih =>
    rcases List.mem_cons.1 h with rfl | h
    · exact Nat.le_max_left _ _
    · exact Nat.le_trans (ih h) (Nat.le_max_right _ _)

/-- A child is lower than its parent. -/
theorem depth_lt_of_mem_children {e child : Expr} (h : child ∈ e.children) :
    depth child < depth e := by
  cases e <;> simp only [children, List.mem_cons, List.not_mem_nil, or_false] at h
  case call f args => exact Nat.lt_succ_of_le (depth_le_depthMax h)
  case logic op operands => exact Nat.lt_succ_of_le (depth_le_depthMax h)
  case negate e => subst h; exact Nat.lt_succ_self _
  case not e => subst h; exact Nat.lt_succ_self _
  case arith => rcases h with rfl | rfl <;> simp only [depth] <;> omega
  case compare => rcases h with rfl | rfl <;> simp only [depth] <;> omega
  case conditional => rcases h with rfl | rfl | rfl <;> simp only [depth] <;> omega

end Expr
end Formulary

import Cadence.Symbol.Registration

/-!
# What syntax trees declare

A tree makes declarations in the scope around it, in the order of the source code, each with those
in its body. Two trees with the same declarations demand the same symbols of a table, whatever else
is known about their types and references.
-/
namespace Cadence

/-- The kinds of declarations. -/
inductive DeclarationKind where
  /-- A binding, a parameter or a field. -/
  | binding
  | procedure
  | struct
  deriving DecidableEq, Repr

/-- The kind of the symbol of a declaration, apart from its place. -/
def DeclarationKind.symbolKind : DeclarationKind → SymbolKind
  | binding => .binding
  | procedure => .procedure
  | struct => .struct

/-- What a declaration is called, and the symbol that it was given. -/
structure Heading where
  name : String
  kind : DeclarationKind
  symbol : Option SymbolIndex
  deriving DecidableEq, Repr

inductive Declaration where
  /-- A binding, a parameter, a field, or a procedure that is defined elsewhere. -/
  | simple (heading : Heading)
  /-- A procedure or a struct with the declarations in its body. -/
  | withBody (heading : Heading) (content : List Declaration)

def Declaration.heading : Declaration → Heading
  | simple heading => heading
  | withBody heading _ => heading

def Declaration.symbol? (declaration : Declaration) : Option SymbolIndex :=
  declaration.heading.symbol

def Declaration.name (declaration : Declaration) : String := declaration.heading.name

/-- The symbol that is added right behind another one. -/
def SymbolIndex.next (index : SymbolIndex) : SymbolIndex := ⟨index.value + 1⟩

/-- The symbols that a declaration puts into the scope around it: its own one, and the scope of its
body behind it. -/
def Declaration.entries : Declaration → List SymbolIndex
  | simple heading => heading.symbol.toList
  | withBody heading _ => heading.symbol.toList.flatMap fun index => [index, index.next]

/-- The symbols that some declarations put into the scope around them. -/
def entriesOf (declared : List Declaration) : List SymbolIndex := declared.flatMap Declaration.entries

@[simp]
theorem entriesOf_nil : entriesOf [] = [] := rfl

@[simp]
theorem entriesOf_cons (first : Declaration) (rest : List Declaration) :
    entriesOf (first :: rest) = first.entries ++ entriesOf rest := rfl

@[simp]
theorem entriesOf_append (left right : List Declaration) :
    entriesOf (left ++ right) = entriesOf left ++ entriesOf right := by
  simp [entriesOf]

theorem entries_simple {heading : Heading} {index : SymbolIndex}
    (known : heading.symbol = some index) : (Declaration.simple heading).entries = [index] := by
  simp [Declaration.entries, known]

theorem entries_withBody {heading : Heading} {content : List Declaration} {index : SymbolIndex}
    (known : heading.symbol = some index) :
    (Declaration.withBody heading content).entries = [index, index.next] := by
  simp [Declaration.entries, known]

/-- The heading of a parameter or a field. -/
def Member.heading (member : Member) : Heading := ⟨member.binder.value, .binding, member.symbol⟩

/-- What some parameters or fields declare. -/
def Member.declarations (members : List Member) : List Declaration :=
  members.map fun member => .simple member.heading

/-- The heading of a procedure at a place. -/
def ProcedureHead.heading (head : ProcedureHead) : Heading :=
  ⟨(head.binder.map Spanned.value).getD Ty.anonymous, .procedure, head.symbol⟩

def Struct.heading (struct : Struct) : Heading :=
  ⟨(struct.binder.map Spanned.value).getD Ty.anonymous, .struct, struct.symbol⟩

def BindingHead.heading (head : BindingHead) : Heading := ⟨head.binder.value, .binding, head.symbol⟩

mutual

/-- The declarations that a node makes in the scope around it. -/
def Node.declarations : Node → List Declaration
  | .procedure _ head none => [.simple head.heading]
  | .procedure _ head (some body) =>
    [.withBody head.heading (Member.declarations head.parameters ++ body.declarations)]
  | .struct _ declared => [.withBody declared.heading (Member.declarations declared.fields)]
  | .binding _ head initializer => Expr.declarationsOption initializer ++ [.simple head.heading]
  | .load _ _ => []
  | .expression inner => inner.declarations
  | .assignment _ target _ value => target.declarations ++ value.declarations

def Expr.declarations : Expr → List Declaration
  | .mk _ form => form.declarations

def Form.declarations : Form → List Declaration
  | .field target _ => target.declarations
  | .call callee arguments => callee.declarations ++ Expr.declarationsAll arguments
  | .binary left _ right => left.declarations ++ right.declarations
  | .unary _ operand => operand.declarations
  | .cast operand _ => operand.declarations
  | .block nodes => Node.declarationsAll nodes
  | .conditional _ condition consequent alternative =>
    condition.declarations ++ (consequent.declarations ++ Expr.declarationsOption alternative)
  | .loop _ condition body alternative =>
    condition.declarations ++ (body.declarations ++ Expr.declarationsOption alternative)
  | .delete operand => operand.declarations
  | .defer node => node.declarations
  | .bool _ | .integer _ _ | .real _ | .text _ | .character _ | .reference _ _ | .new _
  | .uninitialized => []

def Expr.declarationsOption : Option Expr → List Declaration
  | none => []
  | some inner => inner.declarations

def Expr.declarationsAll : List Expr → List Declaration
  | [] => []
  | first :: rest => first.declarations ++ Expr.declarationsAll rest

/-- The declarations that some nodes make one after the other. -/
def Node.declarationsAll : List Node → List Declaration
  | [] => []
  | first :: rest => first.declarations ++ Node.declarationsAll rest

end

end Cadence

import Cadence.Parse.File
import Cadence.Proofs.Parse.Precedence

/-!
# The grammar

The surface grammar, read predictively: an option or a repetition is taken exactly when the next
token can begin it, for the name of a parameter the next two. Every production says which tokens are
taken from the front of the input, which are left, and which tree they stand for. The end of the
input is not among the tokens.

What lies within an expression or a node is a parameter of the productions until the two are tied
together at the end.
-/
namespace Cadence

open Source (Span)

/-- A phrase of the grammar: a relation of the tokens of an input, those left behind the phrase, and
what the phrase stands for. -/
abbrev Phrase (α : Type) := List PlacedToken → List PlacedToken → α → Prop

/-- The first of some tokens is of the given kind. -/
def Begins (name : TokenName) (input : List PlacedToken) : Prop :=
  ∃ first ∈ input.head?, first.token.name = name

/-- `(mark Phrase)?` -/
inductive LedPhrase {α : Type} (mark : TokenName) (phrase : Phrase α) : Phrase (Option α)
  | present {sign : PlacedToken} {input rest : List PlacedToken} {found : α} :
      sign.token.name = mark → phrase input rest found →
      LedPhrase mark phrase (sign :: input) rest (some found)
  | absent {input : List PlacedToken} : ¬ Begins mark input →
      LedPhrase mark phrase input input none

/-- `(Element ("," Element)* ","?)?` up to and including the closing delimiter. -/
inductive ListPhrase {α : Type} (closing : TokenName) (element : Phrase α) : Phrase (List α × Token)
  | close {last : PlacedToken} {rest : List PlacedToken} : last.token.name = closing →
      ListPhrase closing element (last :: rest) rest ([], last.token)
  | last {last : PlacedToken} {input rest : List PlacedToken} {found : α} :
      element input (last :: rest) found → last.token.name = closing →
      ListPhrase closing element input rest ([found], last.token)
  | more {comma : PlacedToken} {input middle rest : List PlacedToken} {found : α} {others : List α}
      {last : Token} :
      element input (comma :: middle) found → comma.token.lexeme = .punctuation .comma →
      ListPhrase closing element middle rest (others, last) →
      ListPhrase closing element input rest (found :: others, last)

/-- `Item*`, where an item stands for any number of elements. -/
inductive RepeatPhrase {α : Type} (item : Phrase (List α)) : Phrase (List α)
  | done {input : List PlacedToken} : RepeatPhrase item input input []
  | more {input middle rest : List PlacedToken} {found others : List α} :
      item input middle found → RepeatPhrase item middle rest others →
      RepeatPhrase item input rest (found ++ others)

/-- `";" | Node` -/
inductive ElementPhrase (node : Phrase Node) : Phrase (List Node)
  | semicolon {first : PlacedToken} {rest : List PlacedToken} :
      first.token.lexeme = .punctuation .semicolon → ElementPhrase node (first :: rest) rest []
  | node {input rest : List PlacedToken} {found : Node} :
      node input rest found → ElementPhrase node input rest [found]

section Types

-- Which tokens can be the name of a parameter.
variable (naming : Lexeme → Option String)

/-- The next two tokens are a name and a colon. -/
def BeginsNamed (input : List PlacedToken) : Prop :=
  ∃ first colon rest, input = first :: colon :: rest ∧ (naming first.token.lexeme).isSome ∧
    colon.token.lexeme = .punctuation .colon

/-- `(Name ":")?` -/
inductive NamePhrase : Phrase (Option Identifier)
  | present {first colon : PlacedToken} {rest : List PlacedToken} {name : String} :
      naming first.token.lexeme = some name → colon.token.lexeme = .punctuation .colon →
      NamePhrase (first :: colon :: rest) rest (some ⟨name, first.token.span⟩)
  | absent {input : List PlacedToken} : ¬ BeginsNamed naming input → NamePhrase input input none

/-- `(Name ":")? Type | "..."` -/
inductive ParameterPhrase (type : Phrase Annotation) : Phrase Parameter
  | varargs {mark : PlacedToken} {rest : List PlacedToken} :
      mark.token.lexeme = .punctuation .varargs →
      ParameterPhrase type (mark :: rest) rest (.varargs mark.token.span)
  | member {input middle rest : List PlacedToken} {name : Option Identifier}
      {annotated : Annotation} :
      NamePhrase naming input middle name → type middle rest annotated →
      ParameterPhrase type input rest
        (.member { binder := name.getD ⟨Ty.anonymous, annotated.span⟩, type := annotated })

/-- What a list of parameters declares: the mark for further arguments is the last one. -/
inductive DeclaresMembers : List Parameter → List Member × Bool → Prop
  | none : DeclaresMembers [] ([], false)
  | varargs {span : Span} : DeclaresMembers [.varargs span] ([], true)
  | member {member : Member} {rest : List Parameter} {members : List Member} {isVariadic : Bool} :
      DeclaresMembers rest (members, isVariadic) →
      DeclaresMembers (.member member :: rest) (member :: members, isVariadic)

/-- `"(" Comma-List(Parameter) ")" ("->" Type)?` -/
inductive SignaturePhrase (type : Phrase Annotation) : Phrase Signature
  | intro {opening : PlacedToken} {input middle rest : List PlacedToken}
      {parameters : List Parameter} {closing : Token} {members : List Member} {isVariadic : Bool}
      {result : Option Annotation} :
      opening.token.lexeme = .punctuation .openingRoundBracket →
      ListPhrase (.punctuation .closingRoundBracket) (ParameterPhrase naming type) input middle
        (parameters, closing) →
      DeclaresMembers parameters (members, isVariadic) →
      LedPhrase (.punctuation .thinArrowRight) type middle rest result →
      SignaturePhrase type (opening :: input) rest
        { parameters := members
          isVariadic
          result
          span := (opening.token.span.through closing.span).throughOption
            (result.map Spanned.span) }

/-- `"*" Type | #Builtin-Type-Name | #Identifier | Procedure-Type`, where a name is not followed by
a dot. -/
inductive TypePhrase : Phrase Annotation
  | pointer {sign : PlacedToken} {input rest : List PlacedToken} {target : Annotation} :
      sign.token.lexeme = .operator .asterisk → TypePhrase input rest target →
      TypePhrase (sign :: input) rest
        ⟨.pointer target.value, sign.token.span.through target.span⟩
  | builtin {first : PlacedToken} {rest : List PlacedToken} {type : BuiltinType} :
      first.token.lexeme = .builtinType type →
      TypePhrase (first :: rest) rest ⟨.builtin type, first.token.span⟩
  | named {first : PlacedToken} {rest : List PlacedToken} {name : String} :
      first.token.lexeme = .identifier name → ¬ Begins (.punctuation .dot) rest →
      TypePhrase (first :: rest) rest
        ⟨.named ⟨name, first.token.span⟩ none, first.token.span⟩
  | procedure {input rest : List PlacedToken} {signature : Signature} :
      SignaturePhrase naming TypePhrase input rest signature →
      TypePhrase input rest ⟨signature.type, signature.span⟩

end Types

section Expressions

variable (naming : Lexeme → Option String) (expression : Phrase Expr) (node : Phrase Node)

/-- A token that is an expression by itself, with its type and its form. -/
inductive IsLiteral : Lexeme → Ty → Form → Prop
  | true_ : IsLiteral (.keyword .true_) (.builtin .bool) (.bool true)
  | false_ : IsLiteral (.keyword .false_) (.builtin .bool) (.bool false)
  | integer {digits : String} {radix : Radix} :
      IsLiteral (.integer digits radix) (.builtin .int)
        (.integer ((radix.valueOf? digits.toList).getD 0) radix)
  | real {literal : String} : IsLiteral (.real literal) (.builtin .real) (.real literal)
  | text {content : String} : IsLiteral (.text content) (.pointer (.builtin .s8)) (.text content)
  | character {character : Char} :
      IsLiteral (.character character) (.builtin .u32) (.character character)

/-- A keyword with a condition and branches behind it, and the form of the whole. -/
inductive IsBranching : Keyword → (Expr → Expr → Option Expr → Form) → Prop
  | if_ : IsBranching .if_ (.conditional false)
  | unless_ : IsBranching .unless_ (.conditional true)
  | while_ : IsBranching .while_ (.loop false)
  | until_ : IsBranching .until_ (.loop true)

/-- `"{" (";" | Node)* "}"` -/
inductive BlockPhrase : Phrase Expr
  | intro {opening closing : PlacedToken} {input rest : List PlacedToken} {nodes : List Node} :
      opening.token.lexeme = .punctuation .openingCurlyBracket →
      RepeatPhrase (ElementPhrase node) input (closing :: rest) nodes →
      closing.token.lexeme = .punctuation .closingCurlyBracket →
      BlockPhrase (opening :: input) rest
        (.ofForm (opening.token.span.through closing.token.span) (.block nodes))

/-- An expression without operators and without suffixes. -/
inductive PrimaryPhrase : Phrase Expr
  | literal {first : PlacedToken} {rest : List PlacedToken} {type : Ty} {form : Form} :
      IsLiteral first.token.lexeme type form →
      PrimaryPhrase (first :: rest) rest (.typed first.token.span type form)
  | character {directive literal : PlacedToken} {rest : List PlacedToken} {content : String}
      {character : Char} :
      directive.token.lexeme = .directive "char" → literal.token.lexeme = .text content →
      content.toList = [character] →
      PrimaryPhrase (directive :: literal :: rest) rest
        (.typed (directive.token.span.through literal.token.span) (.builtin .u32)
          (.character character))
  | reference {first : PlacedToken} {rest : List PlacedToken} {name : String} :
      first.token.lexeme = .identifier name →
      PrimaryPhrase (first :: rest) rest
        (.ofForm first.token.span (.reference ⟨name, first.token.span⟩ none))
  | bracketed {opening closing : PlacedToken} {input rest : List PlacedToken} {inner : Expr} :
      opening.token.lexeme = .punctuation .openingRoundBracket →
      expression input (closing :: rest) inner →
      closing.token.lexeme = .punctuation .closingRoundBracket →
      PrimaryPhrase (opening :: input) rest
        (inner.withSpan (opening.token.span.through closing.token.span))
  | block {input rest : List PlacedToken} {block : Expr} :
      BlockPhrase node input rest block → PrimaryPhrase input rest block
  | branches {first : PlacedToken} {input inside behind rest : List PlacedToken} {word : Keyword}
      {form : Expr → Expr → Option Expr → Form} {condition consequent : Expr}
      {alternative : Option Expr} :
      first.token.lexeme = .keyword word → IsBranching word form →
      expression input inside condition → expression inside behind consequent →
      LedPhrase (.keyword .else_) expression behind rest alternative →
      PrimaryPhrase (first :: input) rest
        (.ofForm ((first.token.span.through consequent.span).throughOption
          (alternative.map Expr.span)) (form condition consequent alternative))
  | new {first : PlacedToken} {input rest : List PlacedToken} {annotated : Annotation} :
      first.token.lexeme = .keyword .new → TypePhrase naming input rest annotated →
      PrimaryPhrase (first :: input) rest
        (.typed (first.token.span.through annotated.span) (.pointer annotated.value)
          (.new annotated))
  | delete {first : PlacedToken} {input rest : List PlacedToken} {operand : Expr} :
      first.token.lexeme = .keyword .delete → expression input rest operand →
      PrimaryPhrase (first :: input) rest
        (.ofForm (first.token.span.through operand.span) (.delete operand))
  | defer {first : PlacedToken} {input rest : List PlacedToken} {deferred : Node} :
      first.token.lexeme = .keyword .defer → node input rest deferred →
      PrimaryPhrase (first :: input) rest
        (.ofForm (first.token.span.through deferred.span) (.defer deferred))

/-- `"as" Type | "(" Comma-List(Expression) ")" | "." #Identifier`, with what it makes of the operand
in front of it. -/
inductive SuffixPhrase : Phrase (Expr → Expr)
  | cast {sign : PlacedToken} {input rest : List PlacedToken} {annotated : Annotation} :
      sign.token.lexeme = .keyword .as_ → TypePhrase naming input rest annotated →
      SuffixPhrase (sign :: input) rest fun operand =>
        .typed (operand.span.through annotated.span) annotated.value (.cast operand annotated)
  | call {opening : PlacedToken} {input rest : List PlacedToken} {arguments : List Expr}
      {closing : Token} :
      opening.token.lexeme = .punctuation .openingRoundBracket →
      ListPhrase (.punctuation .closingRoundBracket) expression input rest (arguments, closing) →
      SuffixPhrase (opening :: input) rest fun operand =>
        .ofForm (operand.span.through closing.span) (.call operand arguments)
  | field {dot field : PlacedToken} {rest : List PlacedToken} {name : String} :
      dot.token.lexeme = .punctuation .dot → field.token.lexeme = .identifier name →
      SuffixPhrase (dot :: field :: rest) rest fun operand =>
        .ofForm (operand.span.through field.token.span) (.field operand ⟨name, field.token.span⟩)

/-- The next token begins a suffix. -/
def BeginsSuffix (input : List PlacedToken) : Prop :=
  Begins (.keyword .as_) input ∨ Begins (.punctuation .openingRoundBracket) input ∨
    Begins (.punctuation .dot) input

/-- `Suffix*` -/
inductive SuffixesPhrase : Phrase (Expr → Expr)
  | none {input : List PlacedToken} : ¬ BeginsSuffix input → SuffixesPhrase input input id
  | more {input middle rest : List PlacedToken} {make others : Expr → Expr} :
      SuffixPhrase naming expression input middle make → SuffixesPhrase middle rest others →
      SuffixesPhrase input rest (others ∘ make)

/-- `#Prefix-Operator Prefix | Primary Suffix*` -/
inductive OperandPhrase : Phrase Expr
  | unary {first : PlacedToken} {input rest : List PlacedToken} {sign : Operator} {operand : Expr} :
      first.token.lexeme = .operator sign → sign.isUnary = true → OperandPhrase input rest operand →
      OperandPhrase (first :: input) rest
        (.ofForm (first.token.span.through operand.span)
          (.unary ⟨sign, first.token.span⟩ operand))
  | plain {input middle rest : List PlacedToken} {operand : Expr} {make : Expr → Expr} :
      PrimaryPhrase naming expression node input middle operand →
      SuffixesPhrase naming expression middle rest make → OperandPhrase input rest (make operand)

/-- The next token is an operator between two operands that continues the line and binds at least as
tightly as given. -/
def Continues (least : Nat) (input : List PlacedToken) : Prop :=
  ∃ first ∈ input.head?, ∃ sign precedence, first.binary? = some (sign, precedence) ∧
    least ≤ precedence

/-- `(#Infix-Operator Prefix)*` with operators that bind at least as tightly as given. -/
inductive ChainPhrase (operand : Phrase Expr) (least : Nat) : Phrase (List Link)
  | done {input : List PlacedToken} : ¬ Continues least input →
      ChainPhrase operand least input input []
  | more {first : PlacedToken} {input middle rest : List PlacedToken} {sign : Spanned Operator}
      {precedence : Nat} {right : Expr} {links : List Link} :
      first.binary? = some (sign, precedence) → least ≤ precedence → operand input middle right →
      ChainPhrase operand least middle rest links →
      ChainPhrase operand least (first :: input) rest (⟨sign, right⟩ :: links)

/-- `Prefix (#Infix-Operator Prefix)*` with operators that bind at least as tightly as given. The
tree groups the operands by precedence. -/
inductive GroupedPhrase (operand : Phrase Expr) (least : Nat) : Phrase Expr
  | intro {input middle rest : List PlacedToken} {first : Expr} {links : List Link}
      {grouping : Grouping} :
      operand input middle first → ChainPhrase operand least middle rest links →
      grouping.IsOrdered → grouping.first = first → grouping.links = links →
      GroupedPhrase operand least input rest grouping.expression

/-- An operator of an assignment, with what it applies to the old value and the new one. -/
inductive IsAssignment : Lexeme → Option Operator → Prop
  | plain : IsAssignment (.punctuation .assign) none
  | compound {sign applied : Operator} :
      sign.applied? = some applied → IsAssignment (.operator sign) (some applied)

/-- `Expression (("=" | #Assignment-Operator) Expression)?`, where a place is assigned to. -/
inductive StatementPhrase : Phrase Node
  | expression {input rest : List PlacedToken} {inner : Expr} : expression input rest inner →
      (∀ first ∈ rest.head?, ∀ applied, ¬ IsAssignment first.token.lexeme applied) →
      StatementPhrase input rest (.expression inner)
  | assignment {sign : PlacedToken} {input middle rest : List PlacedToken} {target value : Expr}
      {applied : Option Operator} :
      expression input (sign :: middle) target → IsAssignment sign.token.lexeme applied →
      expression middle rest value → target.isPlace = true →
      StatementPhrase input rest
        (.assignment (target.span.through value.span) target
          (applied.map fun operator => ⟨operator, sign.token.span⟩) value)

/-- `"=" Expression | Block` -/
inductive BodyPhrase : Phrase Expr
  | expression {sign : PlacedToken} {input rest : List PlacedToken} {body : Expr} :
      sign.token.lexeme = .punctuation .assign → expression input rest body →
      BodyPhrase (sign :: input) rest body
  | block {input rest : List PlacedToken} {body : Expr} :
      BlockPhrase node input rest body → BodyPhrase input rest body

/-- `Expression | "---"` -/
inductive InitialPhrase : Phrase Expr
  | expression {input rest : List PlacedToken} {value : Expr} :
      expression input rest value → InitialPhrase input rest value
  | uninitialized {first : PlacedToken} {rest : List PlacedToken} :
      first.token.lexeme = .punctuation .uninitialized →
      InitialPhrase (first :: rest) rest (.ofForm first.token.span .uninitialized)

/-- A token that can name a procedure, and the name. -/
inductive IsProcedureName : Lexeme → String → Prop
  | identifier {name : String} : IsProcedureName (.identifier name) name
  | operator {sign : Operator} : IsProcedureName (.operator sign) sign.name

/-- `("," | ";")?` -/
inductive SeparatorPhrase : Phrase Unit
  | present {first : PlacedToken} {rest : List PlacedToken} :
      first.token.lexeme = .punctuation .comma ∨ first.token.lexeme = .punctuation .semicolon →
      SeparatorPhrase (first :: rest) rest ()
  | absent {input : List PlacedToken} :
      ¬ Begins (.punctuation .comma) input → ¬ Begins (.punctuation .semicolon) input →
      SeparatorPhrase input input ()

/-- `#Identifier ":" Type ("," | ";")?` -/
inductive FieldPhrase : Phrase (List Member)
  | intro {first colon : PlacedToken} {input middle rest : List PlacedToken} {name : String}
      {annotated : Annotation} :
      first.token.lexeme = .identifier name → colon.token.lexeme = .punctuation .colon →
      TypePhrase naming input middle annotated → SeparatorPhrase middle rest () →
      FieldPhrase (first :: colon :: input) rest
        [{ binder := ⟨name, first.token.span⟩, type := annotated }]

/-- A keyword that begins a binding. -/
inductive IsBinding : Keyword → BindingKind → Prop
  | let_ : IsBinding .let_ .let_
  | var : IsBinding .var .var

/-- A declaration or a statement, given what lies within. -/
inductive ItemPhrase : Phrase Node
  | procedure {keyword first : PlacedToken} {input middle rest : List PlacedToken} {name : String}
      {signature : Signature} {body : Expr} :
      keyword.token.lexeme = .keyword .proc → IsProcedureName first.token.lexeme name →
      SignaturePhrase naming (TypePhrase naming) input middle signature →
      BodyPhrase expression node middle rest body →
      ItemPhrase (keyword :: first :: input) rest
        (.procedure (keyword.token.span.through body.span)
          (signature.head (some ⟨name, first.token.span⟩) false) (some body))
  | external {mark keyword first : PlacedToken} {input rest : List PlacedToken} {name : String}
      {signature : Signature} :
      mark.token.lexeme = .keyword .external → keyword.token.lexeme = .keyword .proc →
      IsProcedureName first.token.lexeme name →
      SignaturePhrase naming (TypePhrase naming) input rest signature →
      ItemPhrase (mark :: keyword :: first :: input) rest
        (.procedure (mark.token.span.through signature.span)
          (signature.head (some ⟨name, first.token.span⟩) true) none)
  | struct {keyword first opening closing : PlacedToken} {input rest : List PlacedToken}
      {name : String} {fields : List Member} :
      keyword.token.lexeme = .keyword .struct → first.token.lexeme = .identifier name →
      opening.token.lexeme = .punctuation .openingCurlyBracket →
      RepeatPhrase (FieldPhrase naming) input (closing :: rest) fields →
      closing.token.lexeme = .punctuation .closingCurlyBracket →
      ItemPhrase (keyword :: first :: opening :: input) rest
        (.struct (keyword.token.span.through closing.token.span)
          { binder := some ⟨name, first.token.span⟩, fields })
  | binding {keyword first : PlacedToken} {input middle rest : List PlacedToken} {word : Keyword}
      {kind : BindingKind} {name : String} {annotated : Option Annotation} {value : Option Expr} :
      keyword.token.lexeme = .keyword word → IsBinding word kind →
      first.token.lexeme = .identifier name →
      LedPhrase (.punctuation .colon) (TypePhrase naming) input middle annotated →
      LedPhrase (.punctuation .assign) (InitialPhrase expression) middle rest value →
      ItemPhrase (keyword :: first :: input) rest
        (.binding (((keyword.token.span.through first.token.span).throughOption
            (annotated.map Spanned.span)).throughOption (value.map Expr.span))
          { kind, binder := ⟨name, first.token.span⟩, type := annotated } value)
  | load {directive first : PlacedToken} {rest : List PlacedToken} {path : String} :
      directive.token.lexeme = .directive "load" → first.token.lexeme = .text path →
      ItemPhrase (directive :: first :: rest) rest
        (.load (directive.token.span.through first.token.span) ⟨path, first.token.span⟩)
  | statement {input rest : List PlacedToken} {parsed : Node} :
      StatementPhrase expression input rest parsed → ItemPhrase input rest parsed

end Expressions

section Knot

variable (naming : Lexeme → Option String)

mutual

/-- An expression with all its operators. -/
inductive ExpressionPhrase : Phrase Expr
  | intro {input rest : List PlacedToken} {parsed : Expr} :
      GroupedPhrase (OperandPhrase naming ExpressionPhrase NodePhrase) 0 input rest parsed →
      ExpressionPhrase input rest parsed

/-- A declaration or a statement. -/
inductive NodePhrase : Phrase Node
  | intro {input rest : List PlacedToken} {parsed : Node} :
      ItemPhrase naming ExpressionPhrase NodePhrase input rest parsed →
      NodePhrase input rest parsed

end

/-- The tokens in front of the end of the input are nodes, with semicolons anywhere between them. -/
def IsTopLevel (tokens : List PlacedToken) (nodes : List Node) : Prop :=
  RepeatPhrase (ElementPhrase (NodePhrase naming)) tokens [] nodes

end Knot

end Cadence

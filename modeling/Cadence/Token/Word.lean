/-!
# Reserved words

The keywords of the language and the names of its builtin types.
-/
namespace Cadence

inductive Keyword where
  | as_ | auto | break_ | class_ | continue_ | data | defer | delete | each | else_ | enum | export_
  | external | false_ | for_ | foreign | goto | if_ | impl | in_ | intern | lazy | let_ | loop
  | match_ | mod | new | partial_ | priv | proc | pub | resume | return_ | sealed | struct | trait
  | true_ | type | unless_ | until_ | var | when | while_ | yield
  deriving DecidableEq, Repr

namespace Keyword

def all : List Keyword :=
  [as_, auto, break_, class_, continue_, data, defer, delete, each, else_, enum, export_,
    external, false_, for_, foreign, goto, if_, impl, in_, intern, lazy, let_, loop,
    match_, mod, new, partial_, priv, proc, pub, resume, return_, sealed, struct, trait,
    true_, type, unless_, until_, var, when, while_, yield]

/-- The keyword as it is written. -/
def name : Keyword → String
  | as_ => "as"
  | auto => "auto"
  | break_ => "break"
  | class_ => "class"
  | continue_ => "continue"
  | data => "data"
  | defer => "defer"
  | delete => "delete"
  | each => "each"
  | else_ => "else"
  | enum => "enum"
  | export_ => "export"
  | external => "extern"
  | false_ => "false"
  | for_ => "for"
  | foreign => "foreign"
  | goto => "goto"
  | if_ => "if"
  | impl => "impl"
  | in_ => "in"
  | intern => "intern"
  | lazy => "lazy"
  | let_ => "let"
  | loop => "loop"
  | match_ => "match"
  | mod => "mod"
  | new => "new"
  | partial_ => "partial"
  | priv => "priv"
  | proc => "proc"
  | pub => "pub"
  | resume => "resume"
  | return_ => "return"
  | sealed => "sealed"
  | struct => "struct"
  | trait => "trait"
  | true_ => "true"
  | type => "type"
  | unless_ => "unless"
  | until_ => "until"
  | var => "var"
  | when => "when"
  | while_ => "while"
  | yield => "yield"

def ofName? (name : String) : Option Keyword := all.find? fun keyword => keyword.name = name

end Keyword

/-- The types that are part of the language. -/
inductive BuiltinType where
  | void | bool | s8 | s16 | s32 | s64 | s128 | u8 | u16 | u32 | u64 | u128
  | r16 | r32 | r64 | r80 | r128 | int | uint | usize | ptrdiff | real
  deriving DecidableEq, Repr

namespace BuiltinType

def all : List BuiltinType :=
  [void, bool, s8, s16, s32, s64, s128, u8, u16, u32, u64, u128,
    r16, r32, r64, r80, r128, int, uint, usize, ptrdiff, real]

def name : BuiltinType → String
  | void => "void"
  | bool => "bool"
  | s8 => "s8"
  | s16 => "s16"
  | s32 => "s32"
  | s64 => "s64"
  | s128 => "s128"
  | u8 => "u8"
  | u16 => "u16"
  | u32 => "u32"
  | u64 => "u64"
  | u128 => "u128"
  | r16 => "r16"
  | r32 => "r32"
  | r64 => "r64"
  | r80 => "r80"
  | r128 => "r128"
  | int => "int"
  | uint => "uint"
  | usize => "usize"
  | ptrdiff => "ptrdiff"
  | real => "real"

def ofName? (name : String) : Option BuiltinType := all.find? fun type => type.name = name

end BuiltinType

end Cadence

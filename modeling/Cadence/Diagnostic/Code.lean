/-!
# Error codes

Every class of errors has a code by which it can be looked up.
-/
namespace Cadence

inductive ErrorCode where
  /-- A character that starts no token. -/
  | e001
  /-- An invalid digit in a number literal. -/
  | e002
  /-- A misplaced digit separator. -/
  | e003
  /-- An unterminated literal. -/
  | e004
  /-- An unexpected end of input. -/
  | e005
  /-- An invalid operator. -/
  | e006
  /-- An unexpected token. -/
  | e010
  /-- A procedure without a name. -/
  | e011
  /-- An incomplete procedure declaration. -/
  | e012
  /-- A struct without a name. -/
  | e013
  /-- A misplaced comma. -/
  | e014
  /-- An unsupported qualified path. -/
  | e015
  /-- An invalid assignment target. -/
  | e016
  /-- An unclosed delimiter. -/
  | e017
  /-- An undefined binding. -/
  | e020
  /-- A binding that is not a type. -/
  | e021
  /-- A field access on a value that is no struct. -/
  | e022
  /-- An undefined field. -/
  | e023
  /-- A source file that cannot be loaded. -/
  | e030
  deriving DecidableEq, Repr

namespace ErrorCode

def all : List ErrorCode :=
  [e001, e002, e003, e004, e005, e006, e010, e011, e012, e013, e014, e015, e016, e017, e020, e021,
    e022, e023, e030]

/-- The digits of the code. -/
def number : ErrorCode → Nat
  | e001 => 1
  | e002 => 2
  | e003 => 3
  | e004 => 4
  | e005 => 5
  | e006 => 6
  | e010 => 10
  | e011 => 11
  | e012 => 12
  | e013 => 13
  | e014 => 14
  | e015 => 15
  | e016 => 16
  | e017 => 17
  | e020 => 20
  | e021 => 21
  | e022 => 22
  | e023 => 23
  | e030 => 30

/-- The letter `E` and three digits. -/
def name (code : ErrorCode) : String :=
  (if code.number < 10 then "E00" else "E0") ++ toString code.number

/-- The code of a name, whose letter may be lower case. -/
def ofName? (name : String) : Option ErrorCode :=
  all.find? fun code => code.name.toLower = name.toLower

/-- A detailed explanation of the class of errors. -/
def explanation : ErrorCode → String
  | e001 =>
    "The lexer encountered a character that cannot start any token. The character is skipped and " ++
      "lexing continues right after it."
  | e002 =>
    "A number literal contains a digit that is not valid for its radix, for example ‘0b102’ or " ++
      "‘0xZZ’, or a radix prefix is not followed by any digit."
  | e003 =>
    "Underscores may separate the digits of number literals but only a single one at a time and " ++
      "only between two digits. Leading, trailing and consecutive separators are reported once per " ++
      "group."
  | e004 =>
    "A string or character literal was not closed before the end of the line. Use a verbatim " ++
      "string delimited by backticks for text spanning several lines."
  | e005 =>
    "The input ended in the middle of a construct, for example inside of a block comment or a " ++
      "string literal."
  | e006 =>
    "A sequence of operator characters does not form an operator known to the language."
  | e010 =>
    "The parser found a token that cannot continue the construct it was parsing. It skips the " ++
      "token and resumes with the next declaration or statement."
  | e011 =>
    "A procedure declaration lacks a name in front of its parameter list. The declaration is " ++
      "still parsed as an anonymous procedure."
  | e012 =>
    "A procedure declaration lacks its type or its body. Procedures need a parameter list and, " ++
      "unless declared ‘extern’, a body introduced by ‘=’ or a block."
  | e013 =>
    "A struct declaration lacks a name in front of its field list."
  | e014 =>
    "A comma may only trail the last element of a list. Empty elements like in ‘(,)’ or ‘(a,,)’ " ++
      "are not permitted."
  | e015 =>
    "Type paths consisting of more than a single identifier are not supported yet."
  | e016 =>
    "The left-hand side of an assignment has to denote a location: an identifier, a field access " ++
      "or a dereference."
  | e017 =>
    "A block or a parenthesized list was not closed before the end of the input."
  | e020 =>
    "A name was used that is not declared anywhere in scope. Locals are only visible after their " ++
      "declaration while global declarations are visible in every file of the compilation unit."
  | e021 =>
    "A name used in type position refers to something other than a struct."
  | e022 =>
    "Fields can only be accessed on values of struct type."
  | e023 =>
    "The struct type of the accessed value does not declare a field of the given name."
  | e030 =>
    "A source file could not be read, either one passed on the command line or one referenced by " ++
      "a ‘#load’ directive."

instance : Ord ErrorCode := ⟨fun left right => compare left.number right.number⟩

end ErrorCode

end Cadence

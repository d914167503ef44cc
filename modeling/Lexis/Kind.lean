/-!
# Kinds of lexemes

A lexeme is an identifier, a literal, one of the fourteen keywords, or one of the twenty-five marks:
separators, operators and the comment marker. Keywords and marks are spelled in one way each, and
their listed order is the order in which a symbol table is preloaded with them.
-/

namespace Lexis

/-- Reserved words. -/
inductive Keyword
  | program | int | boolean | char | string | void
  | if_ | then_ | else_ | while_ | do_ | for_ | function | return_
  deriving DecidableEq, Repr

namespace Keyword

/-- All reserved words, in their listed order. -/
def all : List Keyword :=
  [.program, .int, .boolean, .char, .string, .void, .if_, .then_, .else_, .while_, .do_, .for_,
   .function, .return_]

/-- How a reserved word is written in a source text. -/
def spelling : Keyword → String
  | program => "program" | int => "int" | boolean => "boolean" | char => "char"
  | string => "string" | void => "void" | if_ => "if" | then_ => "then" | else_ => "else"
  | while_ => "while" | do_ => "do" | for_ => "for" | function => "function"
  | return_ => "return"

/-- The name of a reserved word's kind. -/
def name : Keyword → String
  | program => "PROGRAM" | int => "INT" | boolean => "BOOLEAN" | char => "CHAR"
  | string => "STRING" | void => "VOID" | if_ => "IF" | then_ => "THEN" | else_ => "ELSE"
  | while_ => "WHILE" | do_ => "DO" | for_ => "FOR" | function => "FUNCTION"
  | return_ => "RETURN"

/-- Every reserved word is listed. -/
theorem mem_all (k : Keyword) : k ∈ all := by cases k <;> decide

end Keyword

/-- Separators, operators and the comment marker. -/
inductive Mark
  | leftBrace | rightBrace | leftParen | rightParen | leftBracket | rightBracket
  | comma | semicolon | colon
  | assign | equal | notEqual | less | lessEqual | greater | greaterEqual
  | plus | minus | multiply | divide | modulo | and | or | not
  | comment
  deriving DecidableEq, Repr

namespace Mark

/-- All marks, in their listed order. -/
def all : List Mark :=
  [.leftBrace, .rightBrace, .leftParen, .rightParen, .leftBracket, .rightBracket, .comma,
   .semicolon, .colon, .assign, .equal, .notEqual, .less, .lessEqual, .greater, .greaterEqual,
   .plus, .minus, .multiply, .divide, .modulo, .and, .or, .not, .comment]

/-- How a mark is written in a source text: with one character or two. -/
def spelling : Mark → String
  | leftBrace => "\x7b" | rightBrace => "\x7d" | leftParen => "(" | rightParen => ")"
  | leftBracket => "[" | rightBracket => "]" | comma => "," | semicolon => ";" | colon => ":"
  | assign => "=" | equal => "==" | notEqual => "!=" | less => "<" | lessEqual => "<="
  | greater => ">" | greaterEqual => ">=" | plus => "+" | minus => "-" | multiply => "*"
  | divide => "/" | modulo => "%" | and => "&" | or => "|" | not => "!" | comment => "//"

/-- The name of a mark's kind. -/
def name : Mark → String
  | leftBrace => "LEFT_BRACE" | rightBrace => "RIGHT_BRACE"
  | leftParen => "LEFT_PAREN" | rightParen => "RIGHT_PAREN"
  | leftBracket => "LEFT_BRACKET" | rightBracket => "RIGHT_BRACKET"
  | comma => "COMMA" | semicolon => "SEMICOLON" | colon => "COLON"
  | assign => "ASSIGN" | equal => "EQUAL" | notEqual => "NOT_EQUAL"
  | less => "LESS" | lessEqual => "LESS_EQUAL"
  | greater => "GREATER" | greaterEqual => "GREATER_EQUAL"
  | plus => "PLUS" | minus => "MINUS" | multiply => "MULTIPLY" | divide => "DIVIDE"
  | modulo => "MODULO" | and => "AND" | or => "OR" | not => "NOT" | comment => "COMMENT"

/-- Every mark is listed. -/
theorem mem_all (m : Mark) : m ∈ all := by cases m <;> decide

end Mark

/-- What a lexeme is. -/
inductive Kind
  | identifier
  | integer
  | charLiteral
  | stringLiteral
  | keyword (k : Keyword)
  | mark (m : Mark)
  deriving DecidableEq, Repr

namespace Kind

/-- All kinds, in their numbered order. -/
def all : List Kind :=
  [.identifier, .integer, .charLiteral, .stringLiteral] ++ Keyword.all.map .keyword ++
    Mark.all.map .mark

/-- The name of a kind in listings and messages. -/
def name : Kind → String
  | identifier => "IDENTIFIER"
  | integer => "INTEGER"
  | charLiteral => "CHAR_LITERAL"
  | stringLiteral => "STRING_LITERAL"
  | keyword k => k.name
  | mark m => m.name

/-- The number of a kind; the first kind has number one. -/
def number (k : Kind) : Nat := all.idxOf k + 1

/-- The kind of a given name. -/
def ofName? (s : String) : Option Kind := all.find? (·.name == s)

/-- Whether lexemes of a kind are reserved words. -/
def isReserved : Kind → Bool
  | keyword _ => true
  | _ => false

/-- Whether lexemes of a kind are integers, characters or strings. -/
def isLiteral : Kind → Bool
  | integer | charLiteral | stringLiteral => true
  | _ => false

/-- Whether lexemes of a kind are separators, operators or the comment marker. -/
def isMark : Kind → Bool
  | mark _ => true
  | _ => false

/-- Every kind is listed. -/
theorem mem_all (k : Kind) : k ∈ all := by
  cases k with
  | keyword k => simp [all, Keyword.mem_all k]
  | mark m => simp [all, Mark.mem_all m]
  | _ => simp [all]

/-- A kind is a mark's exactly if it is `mark m` for some mark `m`. -/
theorem isMark_iff {k : Kind} : k.isMark = true ↔ ∃ m, k = .mark m := by
  cases k <;> simp [isMark]

end Kind

end Lexis

/-!
# Kinds of token

A Lox token is a punctuation mark, a slash, an operator, an identifier, a string, a number, a
keyword or the end of the input. The order of `TokenKind.all` gives every kind its number, counted
from one, and `TokenKind.name` gives the word by which outputs call it.
-/
namespace LoxLexer

/-- Marks that form a token alone, whatever follows. The slash is absent: two of them open a
comment. -/
inductive Punctuation
  | leftParen | rightParen | leftBrace | rightBrace | comma | dot | minus | plus | semicolon | star
deriving DecidableEq

/-- Operator characters: each forms a token alone or together with an equals sign. -/
inductive OperatorSymbol
  | bang | equal | less | greater
deriving DecidableEq

/-- The reserved words of Lox. -/
inductive Keyword
  | kwAnd | kwClass | kwElse | kwFalse | kwFor | kwFun | kwIf | kwNil | kwOr | kwPrint | kwReturn
  | kwSuper | kwThis | kwTrue | kwVar | kwWhile
deriving DecidableEq

inductive TokenKind
  | punctuation (mark : Punctuation)
  | slash
  | operator (symbol : OperatorSymbol) (withEqual : Bool)
  | identifier
  | string
  | number
  | keyword (word : Keyword)
  | endOfInput
deriving DecidableEq

namespace Punctuation

/-- Every mark, in the order in which outputs list them. -/
def all : List Punctuation :=
  [leftParen, rightParen, leftBrace, rightBrace, comma, dot, minus, plus, semicolon, star]

def toChar : Punctuation → Char
  | leftParen => '('
  | rightParen => ')'
  | leftBrace => '{'
  | rightBrace => '}'
  | comma => ','
  | dot => '.'
  | minus => '-'
  | plus => '+'
  | semicolon => ';'
  | star => '*'

def name : Punctuation → String
  | leftParen => "LEFT_PAREN"
  | rightParen => "RIGHT_PAREN"
  | leftBrace => "LEFT_BRACE"
  | rightBrace => "RIGHT_BRACE"
  | comma => "COMMA"
  | dot => "DOT"
  | minus => "MINUS"
  | plus => "PLUS"
  | semicolon => "SEMICOLON"
  | star => "STAR"

def ofChar? (c : Char) : Option Punctuation := all.find? (·.toChar = c)

theorem mem_all (mark : Punctuation) : mark ∈ all := by cases mark <;> decide

theorem ofChar?_toChar (mark : Punctuation) : ofChar? mark.toChar = some mark := by
  cases mark <;> decide

theorem ofChar?_eq_some_iff {c : Char} {mark : Punctuation} :
    ofChar? c = some mark ↔ mark.toChar = c := by
  constructor
  · intro h
    simpa using List.find?_some h
  · rintro rfl
    exact ofChar?_toChar mark

end Punctuation

namespace OperatorSymbol

/-- Every operator character, in the order in which outputs list them. -/
def all : List OperatorSymbol := [bang, equal, less, greater]

def toChar : OperatorSymbol → Char
  | bang => '!'
  | equal => '='
  | less => '<'
  | greater => '>'

def name : OperatorSymbol → String
  | bang => "BANG"
  | equal => "EQUAL"
  | less => "LESS"
  | greater => "GREATER"

def ofChar? (c : Char) : Option OperatorSymbol := all.find? (·.toChar = c)

theorem mem_all (symbol : OperatorSymbol) : symbol ∈ all := by cases symbol <;> decide

theorem ofChar?_toChar (symbol : OperatorSymbol) : ofChar? symbol.toChar = some symbol := by
  cases symbol <;> decide

theorem ofChar?_eq_some_iff {c : Char} {symbol : OperatorSymbol} :
    ofChar? c = some symbol ↔ symbol.toChar = c := by
  constructor
  · intro h
    simpa using List.find?_some h
  · rintro rfl
    exact ofChar?_toChar symbol

end OperatorSymbol

namespace Keyword

/-- Every keyword, in alphabetical order of its spelling. -/
def all : List Keyword :=
  [kwAnd, kwClass, kwElse, kwFalse, kwFor, kwFun, kwIf, kwNil, kwOr, kwPrint, kwReturn, kwSuper,
    kwThis, kwTrue, kwVar, kwWhile]

def spelling : Keyword → String
  | kwAnd => "and"
  | kwClass => "class"
  | kwElse => "else"
  | kwFalse => "false"
  | kwFor => "for"
  | kwFun => "fun"
  | kwIf => "if"
  | kwNil => "nil"
  | kwOr => "or"
  | kwPrint => "print"
  | kwReturn => "return"
  | kwSuper => "super"
  | kwThis => "this"
  | kwTrue => "true"
  | kwVar => "var"
  | kwWhile => "while"

def name : Keyword → String
  | kwAnd => "AND"
  | kwClass => "CLASS"
  | kwElse => "ELSE"
  | kwFalse => "FALSE"
  | kwFor => "FOR"
  | kwFun => "FUN"
  | kwIf => "IF"
  | kwNil => "NIL"
  | kwOr => "OR"
  | kwPrint => "PRINT"
  | kwReturn => "RETURN"
  | kwSuper => "SUPER"
  | kwThis => "THIS"
  | kwTrue => "TRUE"
  | kwVar => "VAR"
  | kwWhile => "WHILE"

/-- The keyword with exactly this spelling; case matters. -/
def ofSpelling? (text : String) : Option Keyword := all.find? (·.spelling = text)

theorem mem_all (word : Keyword) : word ∈ all := by cases word <;> decide

theorem ofSpelling?_spelling (word : Keyword) : ofSpelling? word.spelling = some word := by
  cases word <;> decide

theorem ofSpelling?_eq_some_iff {text : String} {word : Keyword} :
    ofSpelling? text = some word ↔ word.spelling = text := by
  constructor
  · intro h
    simpa using List.find?_some h
  · rintro rfl
    exact ofSpelling?_spelling word

end Keyword

namespace TokenKind

/-- Every kind, in the order of its number. -/
def all : List TokenKind :=
  [punctuation .leftParen, punctuation .rightParen, punctuation .leftBrace,
    punctuation .rightBrace, punctuation .comma, punctuation .dot, punctuation .minus,
    punctuation .plus, punctuation .semicolon, slash, punctuation .star,
    operator .bang false, operator .bang true, operator .equal false, operator .equal true,
    operator .greater false, operator .greater true, operator .less false, operator .less true,
    identifier, string, number,
    keyword .kwAnd, keyword .kwClass, keyword .kwElse, keyword .kwFalse, keyword .kwFun,
    keyword .kwFor, keyword .kwIf, keyword .kwNil, keyword .kwOr, keyword .kwPrint,
    keyword .kwReturn, keyword .kwSuper, keyword .kwThis, keyword .kwTrue, keyword .kwVar,
    keyword .kwWhile,
    endOfInput]

def name : TokenKind → String
  | punctuation mark => mark.name
  | slash => "SLASH"
  | operator symbol false => symbol.name
  | operator symbol true => symbol.name ++ "_EQUAL"
  | identifier => "IDENTIFIER"
  | string => "STRING"
  | number => "NUMBER"
  | keyword word => word.name
  | endOfInput => "EOF"

/-- The place of a kind in `all`, counted from one. -/
def toNumber (kind : TokenKind) : Nat := all.idxOf kind + 1

def ofName? (text : String) : Option TokenKind := all.find? (·.name = text)

def ofNumber? : Int → Option TokenKind
  | .ofNat (n + 1) => all[n]?
  | _ => none

/-- Kinds whose tokens carry a decoded literal. -/
def isLiteral : TokenKind → Bool
  | string | number => true
  | _ => false

def isKeyword : TokenKind → Bool
  | keyword _ => true
  | _ => false

def isOperator : TokenKind → Bool
  | operator _ _ => true
  | _ => false

theorem mem_all (kind : TokenKind) : kind ∈ all := by
  cases kind with
  | punctuation mark => cases mark <;> decide
  | operator symbol withEqual => cases symbol <;> cases withEqual <;> decide
  | keyword word => cases word <;> decide
  | _ => decide

theorem ofName?_name (kind : TokenKind) : ofName? kind.name = some kind := by
  cases kind with
  | punctuation mark => cases mark <;> decide
  | operator symbol withEqual => cases symbol <;> cases withEqual <;> decide
  | keyword word => cases word <;> decide
  | _ => decide

theorem ofName?_eq_some_iff {text : String} {kind : TokenKind} :
    ofName? text = some kind ↔ kind.name = text := by
  constructor
  · intro h
    simpa using List.find?_some h
  · rintro rfl
    exact ofName?_name kind

/-- Different kinds have different names. -/
theorem name_injective {a b : TokenKind} (h : a.name = b.name) : a = b := by
  have := ofName?_name a
  rw [h, ofName?_name b] at this
  exact (Option.some.inj this).symm

/-- Names are capital letters with underscores between them. -/
theorem isUpper_of_mem_name (kind : TokenKind) :
    ∀ c ∈ kind.name.toList, c.isUpper = true ∨ c = '_' := by
  have hall : (kind.name.toList.all fun c => c.isUpper || c == '_') = true := by
    cases kind with
    | punctuation mark => cases mark <;> decide
    | operator symbol withEqual => cases symbol <;> cases withEqual <;> decide
    | keyword word => cases word <;> decide
    | _ => decide
  simpa using hall

theorem not_mem_name (kind : TokenKind) {c : Char} (h : ¬(c.isUpper = true ∨ c = '_')) :
    c ∉ kind.name.toList :=
  fun hc => h (kind.isUpper_of_mem_name c hc)

theorem ofNumber?_toNumber (kind : TokenKind) : ofNumber? kind.toNumber = some kind := by
  cases kind with
  | punctuation mark => cases mark <;> decide
  | operator symbol withEqual => cases symbol <;> cases withEqual <;> decide
  | keyword word => cases word <;> decide
  | _ => decide

end TokenKind

end LoxLexer

import BlockScript.Source.Span
import BlockScript.Token.Kind

/-!
# Lexemes and tokens

A `Lexeme` is one word of the language: its category and, where the category does not fix it,
its text. A `Token` is a lexeme at a place in a source. Layout, colour and positions are no
part of a lexeme, so "the same program text" means the same list of lexemes.
-/

namespace BlockScript

/-- The number of bytes that `text` takes in UTF-8. -/
def utf8Size (text : List Char) : Nat := text.foldr (fun c size => c.utf8Size + size) 0

@[simp] theorem utf8Size_nil : utf8Size [] = 0 := rfl

@[simp] theorem utf8Size_cons (c : Char) (text : List Char) :
    utf8Size (c :: text) = c.utf8Size + utf8Size text := rfl

@[simp] theorem utf8Size_append (left right : List Char) :
    utf8Size (left ++ right) = utf8Size left + utf8Size right := by
  induction left with
  | nil => simp
  | cons c left size => simp [size, Nat.add_assoc]

/-- A word of the language without its place. Only a lexeme built by hand has a text that its
category fixes, or lacks one that it does not. -/
structure Lexeme where
  kind : Kind
  text? : Option String := none
  deriving DecidableEq, Repr, Inhabited

namespace Lexeme

/-- A reserved word. -/
def keyword (word : Keyword) : Lexeme := ⟨word, none⟩

/-- An operator or delimiter. -/
def symbol (mark : Symbol) : Lexeme := ⟨mark, none⟩

/-- A number written as `digits`. -/
def number (digits : String) : Lexeme := ⟨.number, some digits⟩

/-- A name. -/
def identifier (name : String) : Lexeme := ⟨.identifier, some name⟩

/-- A text literal with this content. -/
def text (content : String) : Lexeme := ⟨.text, some content⟩

/-- A selector; its text leaves out the brackets. -/
def selector (target : String) : Lexeme := ⟨.selector, some target⟩

/-- The word's text: its own if it has one, else the fixed spelling. -/
def content (lexeme : Lexeme) : String :=
  lexeme.text?.getD (lexeme.kind.spelling?.getD "")

/-- A quote that does not occur in `content`, as long as not both do. -/
def quoteFor (content : List Char) : Char := if '"' ∈ content then '\'' else '"'

/-- The lexeme as it stands in a source. -/
def written (lexeme : Lexeme) : List Char :=
  let content := lexeme.content.toList
  match lexeme.kind with
  | .text => quoteFor content :: content ++ [quoteFor content]
  | .selector => '<' :: content ++ ['>']
  | _ => content

/-- The bytes between the ends of the written lexeme and the ends of its span: the span of a
text literal leaves out the quotes. -/
def margin (lexeme : Lexeme) : Nat :=
  match lexeme.kind with
  | .text => 1
  | _ => 0

/-- The bytes of the lexeme as it stands in a source. -/
def width (lexeme : Lexeme) : Nat := utf8Size lexeme.written

/-- The span of the lexeme when it is written at `offset`. -/
def spanAt (lexeme : Lexeme) (offset : Nat) : Span :=
  ⟨offset + lexeme.margin, offset + lexeme.width - lexeme.margin⟩

end Lexeme

/-- A lexeme at a place in a source. -/
structure Token extends Lexeme where
  span : Span
  deriving DecidableEq, Repr, Inhabited

/-- The token that ends every token list. -/
def Token.finish (offset : Nat) : Token := ⟨⟨.finish, none⟩, .point offset⟩

end BlockScript

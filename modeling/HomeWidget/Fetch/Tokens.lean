import HomeWidget.Table

/-!
# Tokens

Requests for the same id may overlap, and their answers may arrive in any order. Every request therefore gets a
token, one greater than the last, and the book remembers the latest token of every id; an answer whose token is not
the latest is out of date. Ids can be forgotten, so that the book does not grow without end.
-/
namespace HomeWidget

/-- The number of a request, a machine word. -/
structure Token where
  word : UInt64
  deriving DecidableEq, Repr

/-- The number of a token. -/
def Token.number (token : Token) : Nat := token.word.toNat

/-- The number of the next token, and the latest token of every id. The numbers start again after the last word. -/
structure TokenBook where
  next : UInt64
  latest : Table Token

namespace TokenBook

/-- No request has been made. -/
def empty : TokenBook := ⟨1, .empty⟩

/-- A new token, the latest of its id. -/
def issue (book : TokenBook) (id : String) : Token × TokenBook :=
  let token : Token := ⟨book.next⟩
  (token, ⟨book.next + 1, book.latest.insert id token⟩)

/-- Is the token the latest of the id? -/
def isLatest (book : TokenBook) (id : String) (token : Token) : Bool := book.latest.get? id == some token

/-- The book without an id. -/
def forget (book : TokenBook) (id : String) : TokenBook := { book with latest := book.latest.erase id }

/-- How many ids the book remembers. -/
def tracked (book : TokenBook) : Nat := book.latest.size

end TokenBook
end HomeWidget

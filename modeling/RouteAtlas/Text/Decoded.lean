/-
  RouteAtlas: the text of a file.

  A text file holds UTF-8.  A byte-order mark at its start is no part of the text, nor is the start of a
  mark that is all there is; a line ends with a line feed, a carriage return or both.

  * `decoded` is the text of a file, none if its bytes are no UTF-8.
-/
namespace RouteAtlas.Text

/-- The characters without a byte-order mark before them. -/
def withoutMark : List Char → List Char
  | '\ufeff' :: rest => rest
  | cs => cs

/-- Ends every line with a line feed. -/
def lineFeeds : List Char → List Char
  | [] => []
  | '\r' :: '\n' :: rest => '\n' :: lineFeeds rest
  | '\r' :: rest => '\n' :: lineFeeds rest
  | c :: rest => c :: lineFeeds rest

/-- Whether a file ends inside a byte-order mark. -/
def isBrokenMark (bytes : ByteArray) : Bool :=
  bytes.data == #[0xef] || bytes.data == #[0xef, 0xbb]

/-- The text of a file, none if its bytes are no UTF-8. -/
def decoded (bytes : ByteArray) : Option String :=
  if isBrokenMark bytes then some ""
  else (String.fromUTF8? bytes).map fun s => .ofList (lineFeeds (withoutMark s.toList))

end RouteAtlas.Text

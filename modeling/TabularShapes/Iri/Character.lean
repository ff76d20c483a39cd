import TabularShapes.Text.Hexadecimal
import TabularShapes.Text.Span

/-! The classes of characters from which an IRI is made. Private use characters are allowed in the
query alone. -/

namespace TabularShapes.Iri

open Text (Spans)

/-- The code points outside ASCII that may stand in every part of an IRI. -/
def wideSpans : Spans := [
  (0xA0, 0xD7FF), (0xF900, 0xFDCF), (0xFDF0, 0xFFEF), (0x10000, 0x1FFFD), (0x20000, 0x2FFFD),
  (0x30000, 0x3FFFD), (0x40000, 0x4FFFD), (0x50000, 0x5FFFD), (0x60000, 0x6FFFD),
  (0x70000, 0x7FFFD), (0x80000, 0x8FFFD), (0x90000, 0x9FFFD), (0xA0000, 0xAFFFD),
  (0xB0000, 0xBFFFD), (0xC0000, 0xCFFFD), (0xD0000, 0xDFFFD), (0xE1000, 0xEFFFD)]

def privateSpans : Spans := [(0xE000, 0xF8FF), (0xF0000, 0xFFFFD), (0x100000, 0x10FFFD)]

def isPlainAscii (c : Char) : Bool := c.isAlphanum || "!$&'()*+,-.;=_~".toList.contains c

/-- An unreserved character or a sub-delimiter: what may stand in a host name. -/
def isPlain (c : Char) : Bool := isPlainAscii c || wideSpans.has c

/-- A character of a user name or a host, before the two are told apart. -/
def isAuthorityChar (c : Char) : Bool := isPlain c || c == ':'

/-- A character of a path segment that may not hold a colon. -/
def isNoColonChar (c : Char) : Bool := isPlain c || c == '@'

def isPathChar (c : Char) : Bool := isPlain c || c == ':' || c == '@' || c == '/'

def isFragmentChar (c : Char) : Bool := isPathChar c || c == '?'

def isQueryChar (c : Char) : Bool := isFragmentChar c || privateSpans.has c

def isSchemeChar (c : Char) : Bool := c.isAlphanum || c == '+' || c == '-' || c == '.'

def isHexDigit (c : Char) : Bool := (Text.hexDigit? c).isSome

end TabularShapes.Iri

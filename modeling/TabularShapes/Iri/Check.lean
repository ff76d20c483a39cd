import TabularShapes.Iri.Address

/-! The judge of absolute IRIs. The text is read once from the left, component by component, and the
first offence is reported. Text without a scheme is read as a relative reference first, so that a
bad character in it is reported rather than the scheme that is missing. -/

namespace TabularShapes.Iri

inductive Fault
  /-- There is no scheme. -/
  | noScheme
  /-- The character may not stand where it does. -/
  | codePoint (c : Char)
  /-- Two hexadecimal digits have to follow a percent sign; `seen` does. -/
  | percentEncoding (seen : List Char)
  /-- The character may not stand in or after a bracketed host. -/
  | hostCharacter (c : Char)
  /-- The bracketed host is no IPv6 address. -/
  | hostAddress
  /-- The character may not stand in a port. -/
  | portCharacter (c : Char)
deriving DecidableEq, Repr

def Fault.addressMessage : String := "invalid IPv6 address syntax"

def Fault.message : Fault → String
  | .noScheme => "No scheme found in an absolute IRI"
  | .codePoint c => s!"Invalid IRI code point '{c}'"
  | .percentEncoding seen => s!"Invalid IRI percent encoding '%{String.ofList seen}'"
  | .hostCharacter c => s!"Invalid character '{c}' in host"
  | .hostAddress => s!"Invalid host IP ({Fault.addressMessage})"
  | .portCharacter c => s!"Invalid character '{c}'"

def Fault.cause? : Fault → Option String
  | .hostAddress => some Fault.addressMessage
  | _ => none

/-- Reads allowed characters and percent encodings up to a character at which the component stops,
and gives what is left from there. -/
def component (allowed stop : Char → Bool) : List Char → Except Fault (List Char)
  | [] => .ok []
  | '%' :: a :: b :: rest =>
    if isHexDigit a && isHexDigit b then component allowed stop rest
    else .error (.percentEncoding [a, b])
  | '%' :: short => .error (.percentEncoding short)
  | c :: rest =>
    if stop c then .ok (c :: rest)
    else if allowed c then component allowed stop rest
    else .error (.codePoint c)

def fragmentOnward : List Char → Except Fault Unit
  | '#' :: rest => (component isFragmentChar (fun _ => false) rest).map fun _ => ()
  | _ => .ok ()

def queryOnward : List Char → Except Fault Unit
  | '?' :: rest => component isQueryChar (· == '#') rest >>= fragmentOnward
  | rest => fragmentOnward rest

def pathOnward (cs : List Char) : Except Fault Unit :=
  component isPathChar (fun c => c == '?' || c == '#') cs >>= queryOnward

def endsAuthority (c : Char) : Bool := c == '/' || c == '?' || c == '#'

def portOnward (cs : List Char) : Except Fault Unit :=
  match cs.dropWhile Char.isDigit with
  | [] => .ok ()
  | c :: rest => if endsAuthority c then pathOnward (c :: rest) else .error (.portCharacter c)

def afterBracket : List Char → Except Fault Unit
  | [] => .ok ()
  | ':' :: port => portOnward port
  | c :: rest => if endsAuthority c then pathOnward (c :: rest) else .error (.hostCharacter c)

def bracketed (cs : List Char) : Except Fault Unit :=
  match cs with
  | 'v' :: _ | 'V' :: _ =>
    match futureFault? cs with
    | some c => .error (.hostCharacter c)
    | none => .ok ()
  | _ => if isIpv6 cs then .ok () else .error .hostAddress

def hostOnward : List Char → Except Fault Unit
  | '[' :: rest =>
    match Text.cutAt ']' rest with
    | none => .error (.hostCharacter '[')
    | some (address, rest) => do
      bracketed address
      afterBracket rest
  | cs => do
    match ← component isPlain (fun c => c == ':' || endsAuthority c) cs with
    | ':' :: port => portOnward port
    | rest => pathOnward rest

/-- Reads an authority and what follows it. The text up to a `@` is a user name; without a `@` the
host is read from the start again. -/
def authorityOnward (cs : List Char) : Except Fault Unit := do
  match ← component isAuthorityChar (fun c => c == '@' || c == '[' || endsAuthority c) cs with
  | '@' :: host => hostOnward host
  | _ => hostOnward cs

def afterScheme : List Char → Except Fault Unit
  | '/' :: '/' :: rest => authorityOnward rest
  | rest => pathOnward rest

/-- Reads a relative reference, the first segment of which holds no colon. -/
def relative : List Char → Except Fault Unit
  | '/' :: rest => afterScheme ('/' :: rest)
  | cs => component isNoColonChar endsAuthority cs >>= pathOnward

/-- What follows the scheme and its colon, if the text starts with a scheme. -/
def scheme? : List Char → Option (List Char)
  | [] => none
  | c :: rest =>
    if c.isAlpha then
      match rest.dropWhile isSchemeChar with
      | ':' :: rest => some rest
      | _ => none
    else none

def check : List Char → Except Fault Unit
  | ':' :: _ => .error .noScheme
  | cs =>
    match scheme? cs with
    | some rest => afterScheme rest
    | none => do
      relative cs
      .error .noScheme

end TabularShapes.Iri

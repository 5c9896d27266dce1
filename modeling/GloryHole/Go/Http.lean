import GloryHole.Go.Utf8

/-!
# HTTP requests

The part of `net/http` the API reads: methods, headers, cookies and the credentials of
Basic authentication.
-/

namespace GloryHole.Go

/-- `strings.EqualFold` with a word of ASCII letters other than `k` and `s`, the two that
have a partner beyond ASCII. -/
def equalFold (s t : GoString) : Bool := s.map asciiLower == t.map asciiLower

inductive Method where
  | get
  | head
  | post
  | put
  | delete
  | patch
  | options
  | other (name : GoString)
  deriving DecidableEq

structure Request where
  method : Method
  path : GoString
  /-- `URL.RequestURI()`: the path with the query. -/
  requestURI : GoString := path
  header : List (GoString × GoString) := []
  cookies : List (GoString × GoString) := []
  remoteAddr : GoString := []
  deriving DecidableEq

def Request.headerGet (r : Request) (name : GoString) : GoString :=
  ((r.header.find? fun h => equalFold h.1 name).map Prod.snd).getD []

def Request.cookie (r : Request) (name : GoString) : Option GoString := r.cookies.lookup name

/-! ## Basic authentication -/

def base64Val (b : UInt8) : Option Nat :=
  if byte 'A' ≤ b ∧ b ≤ byte 'Z' then some (b.toNat - 65)
  else if byte 'a' ≤ b ∧ b ≤ byte 'z' then some (b.toNat - 97 + 26)
  else if byte '0' ≤ b ∧ b ≤ byte '9' then some (b.toNat - 48 + 52)
  else if b = byte '+' then some 62
  else if b = byte '/' then some 63
  else none

def base64Groups : GoString → Option GoString
  | [] => some []
  | a :: b :: c :: d :: rest => do
      let x ← base64Val a
      let y ← base64Val b
      let first := UInt8.ofNat (x * 4 + y / 16)
      if c = byte '=' then
        if d = byte '=' ∧ rest = [] then some [first] else none
      else
        let z ← base64Val c
        let second := UInt8.ofNat (y % 16 * 16 + z / 4)
        if d = byte '=' then
          if rest = [] then some [first, second] else none
        else
          let w ← base64Val d
          let third := UInt8.ofNat (z % 4 * 64 + w)
          let tail ← base64Groups rest
          some (first :: second :: third :: tail)
  | _ => none

/-- `base64.StdEncoding.DecodeString`, which skips line breaks. -/
def base64Decode (s : GoString) : Option GoString :=
  base64Groups (s.filter fun b => b ≠ 0x0A ∧ b ≠ 0x0D)

def Request.basicAuth (r : Request) : Option (GoString × GoString) :=
  let auth := r.headerGet (lit "Authorization")
  if equalFold (auth.take 6) (lit "Basic ") then do
    let credentials ← base64Decode (auth.drop 6)
    let i ← indexByte credentials (byte ':')
    some (credentials.take i, credentials.drop (i + 1))
  else none

end GloryHole.Go

import ShapeQuery.Text.Split

/-!
Numeric network addresses, as far as an authority in brackets needs them.
-/
namespace ShapeQuery.Iri

def isHexDigit (c : Char) : Bool :=
  c.isDigit || ('a' ≤ c && c ≤ 'f') || ('A' ≤ c && c ≤ 'F')

/-- One byte of a version 4 address in decimal, without leading zeros. -/
def isOctet (text : List Char) : Bool :=
  !text.isEmpty && text.all Char.isDigit && text.length ≤ 3 &&
    (text.length = 1 || text.head? != some '0') &&
    text.foldl (fun value c => value * 10 + (c.toNat - 48)) 0 ≤ 255

/-- A version 4 address: four bytes with points between them. -/
def isVersion4 (text : List Char) : Bool :=
  let parts := Text.splitAt '.' text
  parts.length = 4 && parts.all isOctet

def isHextet (text : List Char) : Bool :=
  !text.isEmpty && text.length ≤ 4 && text.all isHexDigit

/-- The groups of a version 6 address after a version 4 address at its end has
been counted as two groups. -/
def groups6 (text : List Char) : Option (List (List Char)) :=
  let parts := Text.splitAt ':' text
  match parts.getLast? with
  | some last =>
    if parts.length < 3 then none
    else if last.contains '.' then
      if isVersion4 last then some (parts.dropLast ++ [['0'], ['0']]) else none
    else some parts
  | none => none

/-- Whether groups, written with at most one gap for zeros, make up a version 6
address. -/
def areGroups6 (parts : List (List Char)) : Bool :=
  let inner := (parts.drop 1).dropLast
  if 9 < parts.length then false
  else
    match inner.findIdx? List.isEmpty with
    | none => parts.length = 8 && parts.all isHextet
    | some index =>
      let before := parts.take (index + 1)
      let after := parts.drop (index + 2)
      let before := if before.head? = some [] then before.drop 1 else before
      let after := if after.getLast? = some [] then after.dropLast else after
      (parts.head? != some [] || before.isEmpty) &&
        (parts.getLast? != some [] || after.isEmpty) &&
        before.length + after.length ≤ 7 && before.all isHextet && after.all isHextet

/-- A version 6 address, perhaps with a zone after `%`. There must be a zone
after the sign, and it must not have another sign in it. -/
def isVersion6 (text : List Char) : Bool :=
  let (address, zone) := Text.cutFirst '%' text
  let zoneFits := match zone with
    | none => true
    | some zone => !zone.isEmpty && !zone.contains '%'
  !text.contains '/' && zoneFits &&
    match groups6 address with
    | some parts => areGroups6 parts
    | none => false

/-- An address of a later version: `v`, a hexadecimal version, a point and
something after it. -/
def isFutureAddress (text : List Char) : Bool :=
  match text with
  | 'v' :: rest =>
    let version := rest.takeWhile isHexDigit
    match rest.drop version.length with
    | '.' :: address => !version.isEmpty && !address.isEmpty && !address.contains '\n'
    | _ => false
  | _ => false

end ShapeQuery.Iri

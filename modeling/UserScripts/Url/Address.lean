import UserScripts.Text.Percent

/-!
# Bracketed hosts

A host in square brackets has to be an IPv6 address, or an address of a later version introduced by `v`.
-/

namespace UserScripts.Url

open UserScripts.Text

/-- Whether a text is a part of a dotted address: a number up to 255 without leading zeros. -/
def isOctet (s : List Char) : Bool :=
  !s.isEmpty && s.length ≤ 3 && s.all Char.isDigit && (s.head? != some '0' || s.length == 1) &&
    s.foldl (fun n c => 10 * n + (c.toNat - 48)) 0 ≤ 255

/-- Whether a text is a dotted address of four parts. -/
def isDotted (s : List Char) : Bool :=
  let parts := splitOn '.' s
  parts.length == 4 && parts.all isOctet

/-- Whether a text is a group of one to four hexadecimal digits. -/
def isGroup (s : List Char) : Bool :=
  !s.isEmpty && s.length ≤ 4 && s.all fun c => (hexDigit? c).isSome

/-- The groups of an address; a dotted end counts as two groups. Nothing if the dotted end is malformed. -/
def groups? (s : List Char) : Option (List (List Char)) :=
  let parts := splitOn ':' s
  match parts.getLast? with
  | some last =>
    if parts.length < 3 then none
    else if last.contains '.' then
      if isDotted last then some (parts.dropLast ++ [['0'], ['0']]) else none
    else some parts
  | none => none

/-- Whether groups spell an address: eight of them, or fewer with one gap. An empty first or last group is allowed only as part
of a gap at that end. -/
def fillAddress (parts : List (List Char)) : Bool :=
  let inner := (parts.drop 1).dropLast
  match inner.findIdx? List.isEmpty with
  | none => parts.length == 8 && parts.all isGroup
  | some i =>
    let high := parts.take (i + 1)
    let low := parts.drop (i + 2)
    let trimmedHigh := if high.head? == some [] then high.drop 1 else high
    let trimmedLow := if low.getLast? == some [] then low.dropLast else low
    parts.length ≤ 9 && (inner.filter List.isEmpty).length == 1 &&
      (high.head? != some [] || trimmedHigh.isEmpty) && (low.getLast? != some [] || trimmedLow.isEmpty) &&
      trimmedHigh.length + trimmedLow.length < 8 && trimmedHigh.all isGroup && trimmedLow.all isGroup

/-- Whether a text is an IPv6 address, possibly with a zone after a percent sign. -/
def isIPv6 (s : List Char) : Bool :=
  let zoneOk := match cutAt? '%' s with
    | none => true
    | some (_, zone) => !zone.isEmpty && !zone.contains '%'
  let address := s.takeWhile (· != '%')
  zoneOk && !s.contains '/' &&
    match groups? address with
    | some parts => fillAddress parts
    | none => false

/-- Whether a text is an address of a later version: `v`, hexadecimal digits, a point, and at least one character more. -/
def isLaterAddress (s : List Char) : Bool :=
  match s with
  | 'v' :: r =>
    let digits := r.takeWhile fun c => (hexDigit? c).isSome
    match r.dropWhile fun c => (hexDigit? c).isSome with
    | '.' :: rest => !digits.isEmpty && !rest.isEmpty && !rest.contains '\n'
    | _ => false
  | _ => false

/-- Whether a text may stand between the brackets of a host. -/
def bracketable (s : List Char) : Bool :=
  if s.head? == some 'v' then isLaterAddress s else isIPv6 s

end UserScripts.Url

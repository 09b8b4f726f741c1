import WebhookBroker.Data.Common

/-!
# Cursors that come from a request (`storage/data/common.go`, `controllers/router.go`)

A client passes the cursor of a page as the text that an earlier answer gave it: the id and the
creation time of a row in base 64. `parseCursor` accepts any text of that form and does not look at
the id. A Go string is a sequence of bytes, and in this module a character stands for one byte.
`DecodeString` and `time.Parse` of the standard library are written out, the latter for the one
layout `time.RFC3339Nano`.
-/

namespace WebhookBroker

/-- The value of a character of the standard alphabet. -/
def base64Value (c : Char) : Option Nat :=
  if 'A' ≤ c ∧ c ≤ 'Z' then some (c.toNat - 65)
  else if 'a' ≤ c ∧ c ≤ 'z' then some (c.toNat - 97 + 26)
  else if '0' ≤ c ∧ c ≤ '9' then some (c.toNat - 48 + 52)
  else if c = '+' then some 62
  else if c = '/' then some 63
  else none

def quantum (a b c d : Nat) : Nat := ((a * 64 + b) * 64 + c) * 64 + d

def quantumBytes (n bits : Nat) : List Char :=
  ([bits / 65536, bits / 256 % 256, bits % 256].map Char.ofNat).take n

/-- Four characters at a time. Only the last four may end with padding, and the bits that the
padding cuts off are ignored. -/
def decodeQuanta : List Char → Option (List Char)
  | [] => some []
  | [a, b, '=', '='] => do return quantumBytes 1 (quantum (← base64Value a) (← base64Value b) 0 0)
  | [a, b, c, '='] => do
    return quantumBytes 2 (quantum (← base64Value a) (← base64Value b) (← base64Value c) 0)
  | a :: b :: c :: d :: rest => do
    let bits := quantum (← base64Value a) (← base64Value b) (← base64Value c) (← base64Value d)
    return quantumBytes 3 bits ++ (← decodeQuanta rest)
  | _ => none

/-- `base64.StdEncoding.DecodeString`, which skips line ends. -/
def decodeString (s : List Char) : Option (List Char) :=
  decodeQuanta (s.filter fun c => c != '\n' && c != '\r')

def digitValue (c : Char) : Nat := c.toNat - 48

/-- `getnum`: a number of two digits or, unless `fixed`, of one. -/
def getnum (fixed : Bool) : List Char → Option (Nat × List Char)
  | a :: b :: s =>
    if !a.isDigit then none
    else if b.isDigit then some (digitValue a * 10 + digitValue b, s)
    else if fixed then none
    else some (digitValue a, b :: s)
  | [a] => if a.isDigit && !fixed then some (digitValue a, []) else none
  | [] => none

/-- `skip` of one character of the layout. -/
def skip (c : Char) : List Char → Option (List Char)
  | a :: s => if a = c then some s else none
  | [] => none

def digitsValue (s : List Char) : Nat := s.foldl (fun n c => n * 10 + digitValue c) 0

def getYear (s : List Char) : Option (Nat × List Char) :=
  if (s.take 4).length = 4 ∧ (s.take 4).all Char.isDigit then
    some (digitsValue (s.take 4), s.drop 4)
  else none

/-- The fraction of the second, after a point or a comma, in nanoseconds. It may be left out, and
digits after the ninth are ignored. -/
def getFraction : List Char → Nat × List Char
  | a :: s =>
    let digits := s.takeWhile Char.isDigit
    if (a = '.' ∨ a = ',') ∧ digits ≠ [] then
      (digitsValue (digits.take 9) * 10 ^ (9 - digits.length), s.dropWhile Char.isDigit)
    else (0, a :: s)
  | [] => (0, [])

/-- The offset of the time zone in seconds: `Z` or `±07:00`. -/
def getZone : List Char → Option (Int × List Char)
  | 'Z' :: s => some (0, s)
  | sign :: s => do
    let (hr, s) ← getnum true s
    let s ← skip ':' s
    let (mm, s) ← getnum true s
    -- some people do write offsets of 24 hours or 60 minutes
    guard (hr ≤ 24 ∧ mm ≤ 60)
    let offset : Int := (hr * 60 + mm) * 60
    if sign = '+' then some (offset, s) else if sign = '-' then some (-offset, s) else none
  | [] => none

def isLeap (year : Nat) : Bool := year % 4 == 0 && (year % 100 != 0 || year % 400 == 0)

def daysIn (month year : Nat) : Nat :=
  if month = 2 then (if isLeap year then 29 else 28)
  else if month = 4 ∨ month = 6 ∨ month = 9 ∨ month = 11 then 30
  else 31

/-- The days from the first of January of the year 1 to a date. -/
def daysSinceEpoch (year month day : Nat) : Int :=
  let y : Int := year - 1
  365 * y + y / 4 - y / 100 + y / 400 +
    (((List.range' 1 (month - 1)).map fun m => daysIn m year).sum + (day - 1) : Nat)

/-- `time.Parse(time.RFC3339Nano, value)`. -/
def parseTime (value : List Char) : Option Time := do
  let (year, value) ← getYear value
  let value ← skip '-' value
  let (month, value) ← getnum true value
  guard (1 ≤ month ∧ month ≤ 12)
  let value ← skip '-' value
  let (day, value) ← getnum true value
  let value ← skip 'T' value
  -- the hour may have one digit
  let (hour, value) ← getnum false value
  guard (hour < 24)
  let value ← skip ':' value
  let (min, value) ← getnum true value
  guard (min < 60)
  let value ← skip ':' value
  let (sec, value) ← getnum true value
  guard (sec < 60)
  let (nsec, value) := getFraction value
  let (zoneOffset, value) ← getZone value
  guard (value.isEmpty ∧ 1 ≤ day ∧ day ≤ daysIn month year)
  let seconds := daysSinceEpoch year month day * 86400 + ((hour * 60 + min) * 60 + sec : Nat)
  return (seconds - zoneOffset) * second + nsec

def cursorSeparator : Char := '|'

/-- `ParseCursor`; `none` is its error. -/
def parseCursor (encodedCursorString : String) : Option Cursor := do
  let cursorString ← decodeString encodedCursorString.toList
  match cursorString.splitOn cursorSeparator with
  | [id, timestamp] => return ⟨String.ofList id, ← parseTime timestamp⟩
  | _ => none

/-- `getPagination`, from the values of the two query parameters. A parameter that is empty or that
`ParseCursor` rejects is ignored. -/
def getPagination (previous next : String) : Pagination where
  previous := if previous.isEmpty then none else parseCursor previous
  next := if next.isEmpty then none else parseCursor next

end WebhookBroker

import DocumentServer.Address.Basic

namespace DocumentServer.Address

abbrev Step (α : Type) : Type := List Char → Option (α × List Char)

def digit? (radix : Nat) (c : Char) : Option Nat :=
  let n :=
    if '0' ≤ c && c ≤ '9' then c.toNat - 48
    else if 'a' ≤ c && c ≤ 'z' then c.toNat - 87
    else if 'A' ≤ c && c ≤ 'Z' then c.toNat - 55
    else radix
  if n < radix then some n else none

def number (radix bound : Nat) : Step Nat := fun cs =>
  let ds := cs.takeWhile fun c => (digit? radix c).isSome
  let n := ds.foldl (fun n c => n * radix + (digit? radix c).getD 0) 0
  if ds.isEmpty || bound ≤ n then none else some (n, cs.drop ds.length)

def shortNumber (radix bound width : Nat) : Step Nat := fun cs => do
  let (n, rest) ← number radix bound cs
  if cs.length - rest.length > width then none else return (n, rest)

def octet : Step UInt8 := fun cs => do
  let (n, rest) ← shortNumber 10 256 3 cs
  if cs.head? = some '0' && cs.length - rest.length > 1 then none
  else return (UInt8.ofNat n, rest)

def group : Step UInt16 := fun cs => do
  let (n, rest) ← shortNumber 16 0x10000 4 cs
  return (UInt16.ofNat n, rest)

def expect (c : Char) : Step Unit
  | [] => none
  | d :: rest => if d = c then some ((), rest) else none

def ipv4 : Step Ipv4 := fun cs => do
  let (a, cs) ← octet cs
  let (_, cs) ← expect '.' cs
  let (b, cs) ← octet cs
  let (_, cs) ← expect '.' cs
  let (c, cs) ← octet cs
  let (_, cs) ← expect '.' cs
  let (d, cs) ← octet cs
  return (⟨a, b, c, d⟩, cs)

def afterColon {α : Type} (isFirst : Bool) (step : Step α) : Step α := fun cs =>
  if isFirst then step cs else (expect ':' cs).bind fun p => step p.2

/-- Up to `n` groups with colons between them, as many as there are. The last two may be given as a
version 4 address; the second part tells whether they are. -/
def groups (isFirst : Bool) : Nat → List Char → List UInt16 × Bool × List Char
  | 0, cs => ([], false, cs)
  | n + 1, cs =>
    match if n = 0 then none else afterColon isFirst ipv4 cs with
    | some (a, rest) =>
      let pair (x y : UInt8) : UInt16 := UInt16.ofNat (x.toNat * 256 + y.toNat)
      ([pair a.first a.second, pair a.third a.fourth], true, rest)
    | none =>
      match afterColon isFirst group cs with
      | some (g, rest) =>
        let (gs, embedded, rest) := groups false n rest
        (g :: gs, embedded, rest)
      | none => ([], false, cs)

def ipv6 : Step Ipv6 := fun cs => do
  let (front, embedded, cs) := groups true 8 cs
  if front.length = 8 then return (← Ipv6.ofGroups? front, cs)
  if embedded then none
  let (_, cs) ← expect ':' cs
  let (_, cs) ← expect ':' cs
  let (back, _, cs) := groups true (7 - front.length) cs
  let zeros := List.replicate (8 - front.length - back.length) 0
  return (← Ipv6.ofGroups? (front ++ zeros ++ back), cs)

def port : Step UInt16 := fun cs => do
  let (_, cs) ← expect ':' cs
  let (n, cs) ← number 10 0x10000 cs
  return (UInt16.ofNat n, cs)

def scope : List Char → UInt32 × List Char
  | '%' :: cs =>
    match number 10 0x100000000 cs with
    | some (n, rest) => (UInt32.ofNat n, rest)
    | none => (0, '%' :: cs)
  | cs => (0, cs)

def socketV4 : Step SocketAddress := fun cs => do
  let (host, cs) ← ipv4 cs
  let (p, cs) ← port cs
  return (.v4 host p, cs)

def socketV6 : Step SocketAddress := fun cs => do
  let (_, cs) ← expect '[' cs
  let (host, cs) ← ipv6 cs
  let (zone, cs) := scope cs
  let (_, cs) ← expect ']' cs
  let (p, cs) ← port cs
  return (.v6 host zone p, cs)

end DocumentServer.Address

namespace DocumentServer.SocketAddress

/-- The address that a whole text writes. -/
def ofString? (s : String) : Option SocketAddress :=
  match (Address.socketV4 s.toList).orElse fun _ => Address.socketV6 s.toList with
  | some (a, []) => some a
  | _ => none

end DocumentServer.SocketAddress

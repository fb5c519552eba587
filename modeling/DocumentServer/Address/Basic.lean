import DocumentServer.Text.Hex

namespace DocumentServer

structure Ipv4 where
  first : UInt8
  second : UInt8
  third : UInt8
  fourth : UInt8
  deriving DecidableEq

namespace Ipv4

def localhost : Ipv4 := ⟨127, 0, 0, 1⟩

def unspecified : Ipv4 := ⟨0, 0, 0, 0⟩

def display (a : Ipv4) : String :=
  s!"{a.first.toNat}.{a.second.toNat}.{a.third.toNat}.{a.fourth.toNat}"

end Ipv4

structure Ipv6 where
  groups : Vector UInt16 8
  deriving DecidableEq

namespace Ipv6

/-- Eight groups, the last two of which may be a version 4 address. -/
def ofGroups? (gs : List UInt16) : Option Ipv6 :=
  if h : gs.length = 8 then some ⟨⟨gs.toArray, by simp [h]⟩⟩ else none

def mapped? (a : Ipv6) : Option Ipv4 :=
  match a.groups.toList with
  | [0, 0, 0, 0, 0, 0xffff, x, y] =>
    some ⟨(x >>> 8).toUInt8, x.toUInt8, (y >>> 8).toUInt8, y.toUInt8⟩
  | _ => none

def zerosFrom (gs : List UInt16) (i : Nat) : Nat := ((gs.drop i).takeWhile (· = 0)).length

def longestZeros (gs : List UInt16) : Nat × Nat :=
  (List.range gs.length).foldl
    (fun best i => if zerosFrom gs i > best.2 then (i, zerosFrom gs i) else best) (0, 0)

def joined (gs : List UInt16) : String :=
  ":".intercalate (gs.map fun g => Text.Hex.ofNat g.toNat)

/-- Two colons stand for the longest run of two or more zero groups. -/
def display (a : Ipv6) : String :=
  match a.mapped? with
  | some v => "::ffff:" ++ v.display
  | none =>
    let gs := a.groups.toList
    let (start, length) := longestZeros gs
    if length > 1 then joined (gs.take start) ++ "::" ++ joined (gs.drop (start + length))
    else joined gs

end Ipv6

/-- A host address with a port; a version 6 address may name a scope, of which zero means none. -/
inductive SocketAddress where
  | v4 (host : Ipv4) (port : UInt16)
  | v6 (host : Ipv6) (scope : UInt32) (port : UInt16)
  deriving DecidableEq

namespace SocketAddress

def display : SocketAddress → String
  | v4 host port => s!"{host.display}:{port.toNat}"
  | v6 host scope port =>
    let zone := if scope = 0 then "" else s!"%{scope.toNat}"
    s!"[{host.display}{zone}]:{port.toNat}"

end SocketAddress

end DocumentServer

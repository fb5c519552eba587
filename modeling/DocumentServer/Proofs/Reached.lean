import DocumentServer.Proofs.Grammar
import DocumentServer.Codec.Read

namespace DocumentServer

inductive Container where
  | document
  | array
  | codeWithScope
  deriving DecidableEq

structure Opened where
  kind : Container
  range : Range

/-- What comes next inside a container. -/
inductive Due where
  | element
  | key (t : Tag)
  | payload (t : Tag)
  /-- The second text of a regular expression. -/
  | options
  | code
  | scope
  /-- The end of a code with its scope. -/
  | ending
  deriving DecidableEq

/-- The bytes of a payload whose tag fixes their number. -/
def Tag.width? : Tag → Option Nat
  | double | datetime | timestamp | int64 => some 8
  | int32 => some 4
  | boolean => some 1
  | objectId => some 12
  | _ => none

namespace Due

/-- The container of elements that comes next. -/
def nested? : Due → Option Container
  | payload .document | scope => some .document
  | payload .array => some .array
  | _ => none

/-- The least length word that may come next. -/
def least? : Due → Option Nat
  | payload .document | payload .array | scope => some 5
  | payload .codeWithScope => some 14
  | payload .binary => some 0
  | payload .string | payload .dbPointer | payload .javascript | payload .symbol | code => some 1
  | _ => none

def IsTerminated : Due → Prop
  | key _ | payload .regex | options => True
  | _ => False

def IsCounted (due : Due) : Prop := due.least? = some 1

end Due

open Grammar

/-- A place is reached, in the innermost container around it and at a number of nested levels, if
what stands in front of it is derivable as far as it goes. -/
inductive Reached (b : ByteArray) : Nat → Opened → Due → Nat → Prop
  | root {n : Nat} (hl : (Bytes.int32 b 0).toInt = n) (h5 : 5 ≤ n) (hn : n ≤ b.size) :
      Reached b 0 ⟨.document, ⟨0, n⟩⟩ .element 4
  | tag {levels c i t} (h : Reached b levels c .element i) (hi : i < c.range.stop)
      (ht : Bytes.at0 b i = Tag.byte t) : Reached b levels c (.key t) (i + 1)
  | key {levels c t i j bytes} (h : Reached b levels c (.key t) i) (hij : i ≤ j)
      (hj : j ≤ c.range.stop) (hk : Grammar.IsTerminated (b.extract i j) bytes)
      (hs : c.kind = .document → ∃ s : String, s.toUTF8 = bytes) :
      Reached b levels c (.payload t) j
  | payload {levels m c t i j v} (h : Reached b levels c (.payload t) i) (hm : levels + m = 100)
      (hij : i ≤ j) (hj : j ≤ c.range.stop) (hv : IsValue m t (b.extract i j) v) :
      Reached b levels c .element j
  | options {levels c i j s} (h : Reached b levels c (.payload .regex) i) (hij : i ≤ j)
      (hj : j ≤ c.range.stop) (hs : IsCString (b.extract i j) s) : Reached b levels c .options j
  | nested {levels c due kind i n} (h : Reached b levels c due i) (hd : due.nested? = some kind)
      (hm : levels < 100) (hl : (Bytes.int32 b i).toInt = (n : Nat)) (h5 : 5 ≤ n)
      (hn : i + n ≤ c.range.stop) : Reached b (levels + 1) ⟨kind, ⟨i, i + n⟩⟩ .element (i + 4)
  | codeWithScope {levels c i n} (h : Reached b levels c (.payload .codeWithScope) i)
      (hl : (Bytes.int32 b i).toInt = (n : Nat)) (hn14 : 14 ≤ n) (hn : i + n ≤ c.range.stop) :
      Reached b levels ⟨.codeWithScope, ⟨i, i + n⟩⟩ .code (i + 4)
  | code {levels c i j s} (h : Reached b levels c .code i) (hij : i ≤ j) (hj : j ≤ c.range.stop)
      (hs : IsString (b.extract i j) s) : Reached b levels c .scope j
  | scope {levels m c i j d} (h : Reached b levels c .scope i) (hm : levels + (m + 1) = 100)
      (hij : i ≤ j) (hj : j ≤ c.range.stop) (hd : IsDocument m (b.extract i j) d) :
      Reached b levels c .ending j

namespace Reached

variable {b : ByteArray} {levels i : Nat} {c : Opened} {due : Due}

theorem within (h : Reached b levels c due i) :
    c.range.start + 4 ≤ i ∧ i ≤ c.range.stop ∧ c.range.stop ≤ b.size := by
  induction h with
  | root hl h5 hn => exact ⟨le_rfl, by dsimp only; omega, hn⟩
  | tag h hi ht ih => exact ⟨by omega, hi, ih.2.2⟩
  | key h hij hj hk hs ih | payload h hm hij hj hv ih | options h hij hj hs ih
  | code h hij hj hs ih | scope h hm hij hj hd ih => exact ⟨ih.1.trans hij, hj, ih.2.2⟩
  | nested h hd hm hl h5 hn ih => exact ⟨le_rfl, by dsimp only; omega, hn.trans ih.2.2⟩
  | codeWithScope h hl hn14 hn ih => exact ⟨le_rfl, by dsimp only; omega, hn.trans ih.2.2⟩

theorem le_size (h : Reached b levels c due i) : i ≤ b.size :=
  h.within.2.1.trans h.within.2.2

theorem declared (h : Reached b levels c due i) :
    (Bytes.int32 b c.range.start).toInt = (c.range.stop - c.range.start : Nat) := by
  induction h with
  | root hl h5 hn => exact hl
  | tag h hi ht ih => exact ih
  | key h hij hj hk hs ih | payload h hm hij hj hv ih | options h hij hj hs ih
  | code h hij hj hs ih | scope h hm hij hj hd ih => exact ih
  | nested h hd hm hl h5 hn ih | codeWithScope h hl hn14 hn ih =>
    rw [hl]
    dsimp only
    omega

end Reached

/-- What comes next at a place needs the bytes up to another, as far as the bytes before that one
tell. -/
inductive Wants (b : ByteArray) : Due → Nat → Nat → Prop
  | tag {i} : Wants b .element i (i + 1)
  | payload {t i n} (h : Tag.width? t = some n) : Wants b (.payload t) i (i + n)
  | word {due : Due} {i least} (h : due.least? = some least) : Wants b due i (i + 4)
  | covered {due : Due} {i least n} (h : due.least? = some least) (h5 : 5 ≤ least)
      (hl : (Bytes.int32 b i).toInt = (n : Nat)) (hn : least ≤ n) : Wants b due i (i + n)
  | counted {due : Due} {i n} (h : due.IsCounted) (hl : (Bytes.int32 b i).toInt = (n : Nat))
      (hn : 1 ≤ n) : Wants b due i (i + 4 + n)
  | subtype {i} : Wants b (.payload .binary) i (i + 4 + 1)
  | binary {i n} (hl : (Bytes.int32 b i).toInt = (n : Nat)) :
      Wants b (.payload .binary) i (i + 4 + 1 + n)
  | pointer {i j s} (hij : i ≤ j) (hs : IsString (b.extract i j) s) :
      Wants b (.payload .dbPointer) i (j + 12)

/-- The innermost container of a place ends, at the place or with the terminator there. -/
inductive Ends (b : ByteArray) : Due → Nat → Nat → Prop
  | terminator {i} (h : Bytes.at0 b i = 0) : Ends b .element i (i + 1)
  | ending {i} : Ends b .ending i i

end DocumentServer

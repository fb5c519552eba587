namespace DocumentServer.Text.Hex

def digit (n : Nat) : Char :=
  if n < 10 then Char.ofNat (48 + n) else Char.ofNat (87 + n)

def digit? (x : UInt8) : Option UInt8 :=
  if 48 ≤ x && x ≤ 57 then some (x - 48)
  else if 65 ≤ x && x ≤ 70 then some (x - 55)
  else if 97 ≤ x && x ≤ 102 then some (x - 87)
  else none

def ofByte (x : UInt8) : List Char :=
  [digit (x.toNat / 16), digit (x.toNat % 16)]

def encode (b : ByteArray) : String :=
  b.foldl (fun s x => (s.push (digit (x.toNat / 16))).push (digit (x.toNat % 16))) ""

def ofNat (n : Nat) : String := String.ofList (Nat.toDigits 16 n)

inductive Fault where
  | oddLength
  | wrongLength
  | notDigit (byte : UInt8) (position : Nat)

/-- The bytes of an even run of digits, or the first byte that is no digit. -/
def decodeDigits (out : ByteArray) (position : Nat) : List UInt8 → Except Fault ByteArray
  | x :: y :: rest =>
    match digit? x, digit? y with
    | some h, some l => decodeDigits (out.push (h * 16 + l)) (position + 2) rest
    | none, _ => .error (.notDigit x position)
    | some _, none => .error (.notDigit y (position + 1))
  | _ => .ok out

/-- Exactly `size` bytes from twice as many digits. Length faults win over digit faults. -/
def decode (size : Nat) (s : String) : Except Fault ByteArray :=
  let b := s.toUTF8
  if b.size % 2 = 1 then .error .oddLength
  else if b.size ≠ 2 * size then .error .wrongLength
  else decodeDigits ByteArray.empty 0 b.data.toList

theorem size_decodeDigits {out b : ByteArray} {p : Nat} {xs : List UInt8}
    (h : decodeDigits out p xs = .ok b) : b.size = out.size + xs.length / 2 := by
  fun_induction decodeDigits out p xs with
  | case1 out p x y rest h l _ _ ih =>
    have hb := ih ‹_›
    simp only [ByteArray.size_push] at hb
    simp only [List.length_cons]
    omega
  | case2 => cases h
  | case3 => cases h
  | case4 xs out p hxs =>
    rw [Except.ok.injEq] at h
    subst h
    match xs, hxs with
    | [], _ => simp
    | [x], _ => simp
    | x :: y :: r, hxs => exact absurd rfl (hxs x y r)

theorem size_decode {n : Nat} {s : String} {b : ByteArray} (h : decode n s = .ok b) :
    b.size = n := by
  simp only [decode] at h
  split at h
  · cases h
  · split at h
    · cases h
    · have hs := size_decodeDigits h
      simp only [ByteArray.size_empty, Array.length_toList, ByteArray.size_data] at hs
      omega

end DocumentServer.Text.Hex

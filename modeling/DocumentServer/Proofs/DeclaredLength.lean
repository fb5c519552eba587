import DocumentServer.Proofs.Tree

namespace DocumentServer

namespace Grammar

variable {n : Nat}

theorem terminator_ne_element (t : Tag) (u v : ByteArray) : one 0 ++ u ≠ one t.byte ++ v := by
  intro h
  obtain ⟨h0, -⟩ := (ByteArray.append_eq_append_iff_of_size_eq_left (size_one _)).1 h
  exact Decode.byte_ne_zero t (one_inj.1 h0).symm

theorem IsElements.unambiguous {v : ByteArray} {es : List (String × Value String)} :
    IsElements n v es → ∀ {v' es' u u'}, IsElements n v' es' →
      v ++ one 0 ++ u = v' ++ one 0 ++ u' → v = v' ∧ es = es'
  | .nil, v', es', u, u', h', hu => by
    cases h' with
    | nil => exact ⟨rfl, rfl⟩
    | cons =>
      simp only [ByteArray.empty_append, ByteArray.append_assoc] at hu
      exact (terminator_ne_element _ _ _ hu).elim
  | .cons (u := x) hk hv h, v', es', u, u', h', hu => by
    cases h' with
    | nil =>
      simp only [ByteArray.empty_append, ByteArray.append_assoc] at hu
      exact (terminator_ne_element _ _ _ hu.symm).elim
    | @cons _ _ _ _ _ _ x' _ hk' hv' h' =>
      rw [ByteArray.append_assoc (b := one 0), ByteArray.append_assoc (b := x),
        ByteArray.append_assoc (b := one 0), ByteArray.append_assoc (b := x')] at hu
      obtain ⟨rfl, hr⟩ := element_eq hu
      obtain ⟨rfl, rfl, hr⟩ := hk.unambiguous hk' hr
      obtain ⟨rfl, rfl, hr⟩ := hv.unambiguous hv' hr
      rw [← ByteArray.append_assoc, ← ByteArray.append_assoc] at hr
      obtain ⟨rfl, rfl⟩ := h.unambiguous h' hr
      exact ⟨rfl, rfl⟩
termination_by structural h => h

end Grammar

namespace Decode

open Grammar

variable {n : Nat} {d c c' : Document String} {w w' u u' : ByteArray}

theorem Inserts.unambiguous (h : Inserts n d w c) (h' : Inserts n d w' c')
    (hw : w ++ u = w' ++ u') : w = w' ∧ c = c' := by
  obtain ⟨v, es, rfl, he, rfl⟩ := h
  obtain ⟨v', es', rfl, he', rfl⟩ := h'
  obtain ⟨rfl, rfl⟩ := he.unambiguous he' hw
  exact ⟨rfl, rfl⟩

theorem isDocument_determined (hw : minDocumentSize ≤ w.size) (hw' : minDocumentSize ≤ w'.size)
    (h : IsDocument n w c) (h' : IsDocument n w' c')
    (hu : w.extract 4 w.size ++ u = w'.extract 4 w'.size) : w.size = w'.size ∧ c = c' := by
  have hi := ((isDocument_iff_inserts hw).1 h).2
  have hi' := ((isDocument_iff_inserts hw').1 h').2
  have hu' : w.extract 4 w.size ++ u = w'.extract 4 w'.size ++ ByteArray.empty := by
    rw [hu, ByteArray.append_empty]
  obtain ⟨he, rfl⟩ := hi.unambiguous hi' hu'
  have hs := congrArg ByteArray.size he
  rw [Bytes.size_extract_of_le le_rfl, Bytes.size_extract_of_le le_rfl] at hs
  rw [minDocumentSize] at hw hw'
  exact ⟨by omega, rfl⟩

end Decode

namespace Pool

open Grammar

variable {p q : Pool} {strategy strategy' : Strategy} {region region' : Nat} {b c : ByteArray}
  {i j m n : Nat} {d e : Document Text}

theorem isDocument_of_decode (h : (p.decode strategy region b i).1 = .ok (d, m)) :
    5 ≤ m ∧ i + m ≤ b.size ∧ IsLength (b.extract i (i + 4)) m ∧
      IsDocument 100 (b.extract i (i + m)) d.plain := by
  rw [decode_fst] at h
  exact (Decode.documentAt_eq_ok_iff (faithful_keeper strategy region i)).1
    ⟨d, _, Prod.ext h rfl, rfl⟩

theorem eq_of_decode_of_le (hb : (p.decode strategy region b i).1 = .ok (d, m))
    (hc : (q.decode strategy' region' c j).1 = .ok (e, n)) (hmn : m ≤ n)
    (h : ∀ k, 4 ≤ k → i + k < b.size → j + k < c.size → Bytes.at0 b (i + k) = Bytes.at0 c (j + k)) :
    m = n ∧ d.plain = e.plain := by
  obtain ⟨hm5, hm, -, hd⟩ := isDocument_of_decode hb
  obtain ⟨hn5, hn, -, he⟩ := isDocument_of_decode hc
  have hbm := Bytes.size_extract_add hm
  have hcn := Bytes.size_extract_add hn
  have ha : b.extract (i + 4) (i + 4 + (m - 4)) = c.extract (j + 4) (j + 4 + (m - 4)) := by
    refine Bytes.extract_congr (by omega) (by omega) fun k hk => ?_
    rw [Nat.add_assoc, Nat.add_assoc]
    exact h (4 + k) (by omega) (by omega) (by omega)
  have hu : (b.extract i (i + m)).extract 4 (b.extract i (i + m)).size ++
      c.extract (j + m) (j + n) =
        (c.extract j (j + n)).extract 4 (c.extract j (j + n)).size := by
    rw [hbm, hcn, ByteArray.extract_extract, ByteArray.extract_extract, Nat.min_self, Nat.min_self,
      ← Bytes.extract_append_extract_of_le (show j + 4 ≤ j + m by omega)
        (show j + m ≤ j + n by omega)]
    rw [show i + 4 + (m - 4) = i + m by omega, show j + 4 + (m - 4) = j + m by omega] at ha
    rw [ha]
  obtain ⟨hs, hp⟩ := Decode.isDocument_determined (by rwa [hbm]) (by rwa [hcn]) hd he hu
  exact ⟨hbm.symm.trans (hs.trans hcn), hp⟩

theorem eq_of_decode (hb : (p.decode strategy region b i).1 = .ok (d, m))
    (hc : (q.decode strategy' region' c j).1 = .ok (e, n))
    (h : ∀ k, 4 ≤ k → i + k < b.size → j + k < c.size → Bytes.at0 b (i + k) = Bytes.at0 c (j + k)) :
    m = n ∧ d.plain = e.plain := by
  rcases Nat.le_total m n with hmn | hnm
  · exact eq_of_decode_of_le hb hc hmn h
  · obtain ⟨hs, hp⟩ := eq_of_decode_of_le hc hb hnm fun k hk hc hb => (h k hk hb hc).symm
    exact ⟨hs.symm, hp.symm⟩

theorem at0_replaced {k : Nat} {w : Int32} {x : ByteArray} (h4 : 4 ≤ k) (hk : k < m)
    (hm : i + m ≤ b.size) :
    Bytes.at0 (b.extract i (i + m)) k =
      Bytes.at0 (Bytes.ofInt32 w ++ b.extract (i + 4) (i + m) ++ x) k := by
  have hs := Bytes.size_ofInt32 w
  have hr : (b.extract (i + 4) (i + m)).size = m - 4 := by
    rw [Bytes.size_extract_of_le hm]
    omega
  have hl : k < (Bytes.ofInt32 w ++ b.extract (i + 4) (i + m)).size := by
    rw [ByteArray.size_append]
    omega
  obtain ⟨l, rfl⟩ : ∃ l, k = (Bytes.ofInt32 w).size + l := ⟨k - 4, by omega⟩
  rw [Bytes.at0_append_left hl, Bytes.at0_append_right, Bytes.at0_extract (by omega) hm,
    Bytes.at0_extract (by omega) hm, hs, Nat.add_assoc]

/-- The bytes of a document behind another length word, with anything behind them, are no
document. -/
theorem error_of_replaced_length (h : (p.decode strategy region b i).1 = .ok (d, m)) (w : Int32)
    (x : ByteArray) (hw : w.toInt ≠ m) (q : Pool) (strategy' : Strategy) (region' : Nat) :
    ∃ fault, (q.decode strategy' region' (Bytes.ofInt32 w ++ b.extract (i + 4) (i + m) ++ x) 0).1 =
      .error fault := by
  cases hc : (q.decode strategy' region'
    (Bytes.ofInt32 w ++ b.extract (i + 4) (i + m) ++ x) 0).1 with
  | error fault => exact ⟨fault, rfl⟩
  | ok a =>
    obtain ⟨e, n⟩ := a
    obtain ⟨hm5, hm, hl, hd⟩ := isDocument_of_decode h
    have hb := Bytes.size_extract_add hm
    have hx : (b.extract i (i + m)).extract 0 (0 + m) = b.extract i (i + m) := by
      rw [Nat.zero_add, ByteArray.extract_extract, Nat.add_zero, Nat.min_self]
    have hx4 : (b.extract i (i + m)).extract 0 (0 + 4) = b.extract i (i + 4) := by
      rw [Nat.zero_add, ByteArray.extract_extract, Nat.add_zero, Nat.min_eq_left (by omega)]
    -- the document on its own, since what is behind it need not agree with `x`
    obtain ⟨d', t, hd', -⟩ := (Decode.documentAt_eq_ok_iff (b := b.extract i (i + m)) (i := 0)
      (faithful_keeper strategy region 0) (s := p)).2
        ⟨hm5, by omega, by rwa [hx4], by rwa [hx]⟩
    replace hd' : (p.decode strategy region (b.extract i (i + m)) 0).1 = .ok (d', m) := by
      rw [decode_fst, hd']
    obtain ⟨rfl, -⟩ := eq_of_decode hd' hc fun k hk hkm _ => by
      rw [Nat.zero_add, hb] at hkm
      rw [Nat.zero_add, at0_replaced hk hkm hm]
    obtain ⟨-, hn, hl', -⟩ := isDocument_of_decode hc
    have hi : (Bytes.int32 (Bytes.ofInt32 w ++ b.extract (i + 4) (i + m) ++ x) 0).toInt = m :=
      (Decode.isLength_extract_iff (by omega)).1 hl'
    rw [ByteArray.append_assoc, Bytes.int32_append_left (Bytes.size_ofInt32 w).ge,
      Bytes.int32_ofInt32] at hi
    exact (hw hi).elim

/-- The bytes behind the length word of a document decide its length: a region that agrees with them
as far as both go, and is read as a document, declares the same length and says the same. So no
other length word, in front of the same bytes and with anything behind them, makes a document. -/
theorem decode_determines_length (h : (p.decode strategy region b i).1 = .ok (d, m)) :
    (∀ (q : Pool) (strategy' : Strategy) (region' : Nat) (c : ByteArray) (j : Nat)
        (e : Document Text) (n : Nat),
      (∀ k, 4 ≤ k → i + k < b.size → j + k < c.size →
        Bytes.at0 b (i + k) = Bytes.at0 c (j + k)) →
      (q.decode strategy' region' c j).1 = .ok (e, n) → m = n ∧ d.plain = e.plain) ∧
      ∀ (q : Pool) (strategy' : Strategy) (region' : Nat) (w : Int32) (x : ByteArray),
        w.toInt ≠ m → ∃ fault,
          (q.decode strategy' region' (Bytes.ofInt32 w ++ b.extract (i + 4) (i + m) ++ x) 0).1 =
            .error fault := by
  constructor
  · intro q strategy' region' c j e n ha hc
    exact eq_of_decode h hc ha
  · intro q strategy' region' w x hw
    exact error_of_replaced_length h w x hw q strategy' region'

theorem decode_determines_length_padded :
    let b : ByteArray := ⟨#[12, 0, 0, 0, 16, 97, 0, 1, 0, 0, 0, 0]⟩
    let c : ByteArray := ⟨#[9, 12, 0, 0, 0, 16, 97, 0, 1, 0, 0, 0, 0, 7]⟩
    let p := empty .onlyLikely 0
    (∃ d e, (p.decode .borrow 0 b 0).1 = .ok (d, 12) ∧ (p.decode .borrow 1 c 1).1 = .ok (e, 12) ∧
      d.plain = e.plain) ∧
      ∃ fault, (p.decode .copy 0 (Bytes.ofInt32 13 ++ b.extract 4 12 ++ one 0) 0).1 =
        .error fault := by
  intro b c p
  have hb : (p.decode .borrow 0 b 0).1 = .ok ([(⟨"a", .view 0 5⟩, .scalar (.int32 1))], 12) := by
    cbv
  have hc : (p.decode .borrow 1 c 1).1 = .ok ([(⟨"a", .view 1 6⟩, .scalar (.int32 1))], 12) := by
    cbv
  have ha (k : Nat) (_ : 4 ≤ k) (hk : 0 + k < b.size) (_ : 1 + k < c.size) :
      Bytes.at0 b (0 + k) = Bytes.at0 c (1 + k) := by
    have hs : ∀ k < 12, Bytes.at0 b k = Bytes.at0 c (1 + k) := by decide
    rw [Nat.zero_add] at hk ⊢
    exact hs k hk
  obtain ⟨hs, ho⟩ := decode_determines_length hb
  exact ⟨⟨_, _, hb, hc, (hs p .borrow 1 c 1 _ 12 ha hc).2⟩,
    ho p .copy 0 13 (one 0) (by decide)⟩

end Pool

end DocumentServer

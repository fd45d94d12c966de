import MiddleWhere.Net.PgBind
import MiddleWhere.Net.PgRender

/-!
# Binary arrays

A header gives the number of dimensions, the type of the elements and, for each dimension,
its size and its lower bound; the elements follow row by row, each behind its length. The
decoder drops the shape and keeps the elements.
-/

namespace MiddleWhere.Net
open Outcome (safe_ok safe_err)

/-! ## The layout -/

/-- An array that a server can send, with up to ten million elements. -/
structure BinArray where
  dims : List (ℕ × ℤ)
  flags : ℤ
  elemOid : ℤ
  elems : List (Option Bytes)
  rank : 1 ≤ dims.length ∧ dims.length ≤ 6
  sizes : ∀ d ∈ dims, 1 ≤ d.1
  count : (dims.map Prod.fst).prod = elems.length
  count_le : elems.length ≤ 10000000
  oid_word : -2 ^ 31 ≤ elemOid ∧ elemOid < 2 ^ 31
  elems_word : ∀ b, some b ∈ elems → b.length < 2 ^ 31

/-- A size and a lower bound. -/
def dimText (d : ℕ × ℤ) : Bytes := be 4 d.1 ++ be 4 d.2

def BinArray.encode (a : BinArray) : Bytes :=
  be 4 a.dims.length ++ (be 4 a.flags ++ (be 4 a.elemOid ++
    (a.dims.flatMap dimText ++ a.elems.flatMap cellText)))

/-! ## Reading words -/

/-- The `i32` at `pos`. -/
def wordAt (b : Bytes) (pos : ℕ) : ℤ := signed 4 (fromBe ((b.drop pos).take 4))

section
variable {b : Bytes} {pos : ℕ}

theorem rd_eq (h : pos + 4 ≤ b.length) : rd b pos = .ok (wordAt b pos) := by
  rw [rd, Outcome.slice_of_le (by omega) h, Nat.add_sub_cancel_left]
  rfl

theorem signed_bounds (n : ℕ) : -2 ^ 31 ≤ signed 4 n ∧ signed 4 n < 2 ^ 31 := by
  unfold signed
  split_ifs <;> omega

theorem wordAt_lt (b : Bytes) (pos : ℕ) : (wordAt b pos).toNat < 2 ^ 31 := by
  have hword := signed_bounds (fromBe ((b.drop pos).take 4))
  unfold wordAt
  omega

theorem wordAt_at {n : ℤ} (hlo : -2 ^ 31 ≤ n) (hhi : n < 2 ^ 31) (h : At b pos (be 4 n)) :
    wordAt b pos = n := by
  obtain ⟨rest, hdrop⟩ := h.drop
  rw [wordAt, hdrop, List.take_left' (be_length 4 n), signed_fromBe_be (.inr rfl) hlo hhi]

theorem rd_at {n : ℤ} (hlo : -2 ^ 31 ≤ n) (hhi : n < 2 ^ 31) (h : At b pos (be 4 n)) :
    rd b pos = .ok n := by
  have hle := h.le
  rw [be_length] at hle
  rw [rd_eq hle, wordAt_at hlo hhi h]

/-! ## No access out of range -/

theorem readDims_safe (n pos : ℕ) (total : ℤ) : (readDims b n pos total).Safe := by
  induction n generalizing pos total with
  | zero => exact safe_ok _
  | succ n ih =>
    rw [readDims]
    by_cases hshort : b.length < pos + 8
    · rw [if_pos hshort]
      exact safe_err _
    · rw [if_neg hshort, rd_eq (by omega), Outcome.ok_bind]
      dsimp only
      split_ifs
      · exact ih _ _
      · exact safe_err _

theorem readElems_safe (hb : b.length < 2 ^ 63) (n pos : ℕ) : (readElems b n pos).Safe := by
  induction n generalizing pos with
  | zero => exact safe_ok _
  | succ n ih =>
    rw [readElems]
    by_cases hshort : b.length < pos + 4
    · rw [if_pos hshort]
      exact safe_err _
    · rw [if_neg hshort, rd_eq (by omega), Outcome.ok_bind]
      dsimp only
      have hlen := wordAt_lt b pos
      split_ifs with hnull
      · exact Outcome.safe_bind (ih _) fun _ _ => safe_ok _
      · rw [Outcome.addWord_of_lt (by omega), Outcome.ok_bind]
        split_ifs with hover
        · exact safe_err _
        · rw [Outcome.slice_of_le (by omega) (by omega), Outcome.ok_bind]
          exact Outcome.safe_bind (ih _) fun _ _ => safe_ok _

theorem decodeBinArray_safe (hb : b.length < 2 ^ 63) : (decodeBinArray b).Safe := by
  rw [decodeBinArray]
  by_cases hshort : b.length < 12
  · rw [if_pos hshort]
    exact safe_err _
  · rw [if_neg hshort, rd_eq (by omega), Outcome.ok_bind, rd_eq (by omega), Outcome.ok_bind]
    split_ifs
    · exact safe_ok _
    · refine Outcome.safe_bind (readDims_safe _ _ _) fun _ _ => ?_
      exact Outcome.safe_bind (readElems_safe hb _ _) fun _ _ => safe_ok _
    · exact safe_err _

/-! ## What an array decodes to -/

theorem readDims_at {dims : List (ℕ × ℤ)} {total : ℕ} (hsizes : ∀ d ∈ dims, 1 ≤ d.1)
    (htotal : total * (dims.map Prod.fst).prod ≤ 10000000) (hpos : 1 ≤ total)
    (h : At b pos (dims.flatMap dimText)) :
    readDims b dims.length pos total =
      .ok (((total * (dims.map Prod.fst).prod : ℕ) : ℤ), pos + (dims.flatMap dimText).length) := by
  induction dims generalizing pos total with
  | nil => simp [readDims]
  | cons d dims ih =>
    obtain ⟨hd, hdims⟩ := List.forall_mem_cons.mp hsizes
    rw [List.flatMap_cons] at h
    have hle := h.left.le
    have hlen : (dimText d).length = 8 := by simp [dimText, be_length]
    rw [List.map_cons, List.prod_cons, ← Nat.mul_assoc] at htotal
    have hprod : 1 ≤ (dims.map Prod.fst).prod := by
      refine Nat.one_le_iff_ne_zero.mpr fun hzero => ?_
      obtain ⟨x, hx, hx0⟩ := List.mem_map.mp (List.prod_eq_zero_iff.mp hzero)
      exact absurd (hdims x hx) (by omega)
    have hstep : total * d.1 ≤ 10000000 := (Nat.le_mul_of_pos_right _ hprod).trans htotal
    have hsize : d.1 ≤ 10000000 := (Nat.le_mul_of_pos_left _ hpos).trans hstep
    have hrd : rd b pos = .ok (d.1 : ℤ) := rd_at (by omega) (by omega) h.left.left
    have hnext : 1 ≤ total * d.1 := Nat.mul_pos hpos hd
    have hrest := h.right
    rw [hlen] at hrest hle
    have hcast : (total : ℤ) * (d.1 : ℤ) = ((total * d.1 : ℕ) : ℤ) := (Nat.cast_mul _ _).symm
    have hbound : ((total * d.1 : ℕ) : ℤ) ≤ 10000000 := by exact_mod_cast hstep
    rw [List.length_cons, readDims, if_neg (by omega), hrd, Outcome.ok_bind]
    dsimp only
    rw [max_eq_left (Int.natCast_nonneg d.1), hcast, if_pos hbound, ih hdims htotal hnext hrest,
      List.flatMap_cons, List.length_append, hlen, List.map_cons, List.prod_cons, Nat.mul_assoc,
      Nat.add_assoc]

theorem readElems_at {elems : List (Option Bytes)} (hb : b.length < 2 ^ 63)
    (hword : ∀ x, some x ∈ elems → x.length < 2 ^ 31)
    (h : At b pos (elems.flatMap cellText)) : readElems b elems.length pos = .ok elems := by
  induction elems generalizing pos with
  | nil => rfl
  | cons e elems ih =>
    rw [List.flatMap_cons] at h
    have hrest := ih (fun x hx => hword x (List.mem_cons_of_mem e hx)) h.right
    have hle := h.left.le
    cases e with
    | none =>
      have hlen : rd b pos = .ok (-1) := rd_at (by norm_num) (by norm_num) h.left
      rw [cellText, be_length] at hrest hle
      rw [List.length_cons, readElems, if_neg (by omega), hlen, Outcome.ok_bind]
      dsimp only
      rw [if_pos (by norm_num), hrest, Outcome.ok_bind]
      rfl
    | some x =>
      have hx := hword x List.mem_cons_self
      have hcell : At b pos (be 4 x.length ++ x) := h.left
      have hlen : rd b pos = .ok (x.length : ℤ) := rd_at (by omega) (by omega) hcell.left
      have hvalue := hcell.right.slice (ε := String)
      rw [be_length] at hvalue
      rw [cellText, List.length_append, be_length, ← Nat.add_assoc] at hrest hle
      rw [List.length_cons, readElems, if_neg (by omega), hlen, Outcome.ok_bind]
      dsimp only
      rw [if_neg (by omega), Int.toNat_natCast, Outcome.addWord_of_lt (by omega), Outcome.ok_bind,
        if_neg (by omega), hvalue, Outcome.ok_bind, hrest, Outcome.ok_bind]
      rfl

/-! ## How many elements there are -/

/-- The sizes in the header; one that is negative counts for nothing. -/
def dimSizes (b : Bytes) : ℕ → ℕ → List ℕ
  | 0, _ => []
  | n + 1, pos => (wordAt b pos).toNat :: dimSizes b n (pos + 8)

theorem readDims_total {n : ℕ} {total count : ℤ} {stop : ℕ}
    (h : readDims b n pos total = .ok (count, stop)) :
    count = total * ((dimSizes b n pos).prod : ℕ) := by
  induction n generalizing pos total with
  | zero =>
    obtain ⟨rfl, -⟩ := Prod.mk.inj (Outcome.ok.inj h)
    simp [dimSizes]
  | succ n ih =>
    rw [readDims] at h
    by_cases hshort : b.length < pos + 8
    · rw [if_pos hshort] at h
      exact absurd h (by simp)
    · rw [if_neg hshort, rd_eq (by omega), Outcome.ok_bind] at h
      dsimp only at h
      split_ifs at h with hmany
      rw [ih h, dimSizes, List.prod_cons, Nat.cast_mul, ← Int.mul_assoc, Int.toNat_eq_max]

theorem readElems_length {n : ℕ} {elems : List (Option Bytes)}
    (h : readElems b n pos = .ok elems) : elems.length = n := by
  induction n generalizing pos elems with
  | zero =>
    obtain rfl := Outcome.ok.inj h
    rfl
  | succ n ih =>
    rw [readElems] at h
    split_ifs at h with hshort
    obtain ⟨len, -, h⟩ := Outcome.bind_eq_ok_iff.mp h
    dsimp only at h
    split_ifs at h with hnull
    · obtain ⟨rest, hrest, h⟩ := Outcome.bind_eq_ok_iff.mp h
      obtain rfl := Outcome.ok.inj h
      rw [List.length_cons, ih hrest]
    · obtain ⟨stop, -, h⟩ := Outcome.bind_eq_ok_iff.mp h
      split_ifs at h with hover
      obtain ⟨elem, -, h⟩ := Outcome.bind_eq_ok_iff.mp h
      obtain ⟨rest, hrest, h⟩ := Outcome.bind_eq_ok_iff.mp h
      obtain rfl := Outcome.ok.inj h
      rw [List.length_cons, ih hrest]

theorem decodeBinArray_count {oid : ℤ} {elems : List (Option Bytes)}
    (h : decodeBinArray b = .ok (oid, elems)) (hdims : wordAt b 0 ≠ 0) :
    elems.length = (dimSizes b (wordAt b 0).toNat 12).prod := by
  rw [decodeBinArray] at h
  split_ifs at h with hshort
  rw [rd_eq (by omega), Outcome.ok_bind, rd_eq (by omega), Outcome.ok_bind, if_neg hdims] at h
  split_ifs at h with hrank
  obtain ⟨⟨count, pos⟩, hread, h⟩ := Outcome.bind_eq_ok_iff.mp h
  dsimp only at h
  obtain ⟨found, hfound, h⟩ := Outcome.bind_eq_ok_iff.mp h
  obtain ⟨-, rfl⟩ := Prod.mk.inj (Outcome.ok.inj h)
  rw [readElems_length hfound, readDims_total hread, one_mul, Int.toNat_natCast]

end

/-! ## Arrays of every shape -/

theorem cells_length {elems : List (Option Bytes)} (hword : ∀ x, some x ∈ elems → x.length < 2 ^ 31) :
    (elems.flatMap cellText).length ≤ elems.length * (2 ^ 31 + 4) := by
  have hcell : ∀ e ∈ elems, (cellText e).length ≤ 2 ^ 31 + 4 := by
    intro e he
    cases e with
    | none => simp [cellText, be_length]
    | some x =>
      have hx := hword x he
      simp only [cellText, List.length_append, be_length]
      omega
  rw [List.length_flatMap, ← smul_eq_mul, ← List.length_map (f := fun e => (cellText e).length)]
  refine List.sum_le_card_nsmul _ _ fun n hn => ?_
  obtain ⟨e, he, rfl⟩ := List.mem_map.mp hn
  exact hcell e he

theorem dims_length (dims : List (ℕ × ℤ)) : (dims.flatMap dimText).length = dims.length * 8 := by
  rw [List.length_flatMap]
  simp [dimText, be_length]

theorem BinArray.encode_length (a : BinArray) : a.encode.length < 2 ^ 63 := by
  have hcells := cells_length a.elems_word
  have hmany : a.elems.length * (2 ^ 31 + 4) ≤ 10000000 * (2 ^ 31 + 4) :=
    Nat.mul_le_mul_right _ a.count_le
  have hrank := a.rank.2
  simp only [BinArray.encode, List.length_append, be_length, dims_length]
  omega

theorem decodeBinArray_encode (a : BinArray) :
    decodeBinArray a.encode = .ok (a.elemOid, a.elems) := by
  have hrank := a.rank
  have hat : At a.encode 0 a.encode := by
    have hstart := At.start a.encode []
    rwa [List.append_nil] at hstart
  have hndim : At a.encode 0 (be 4 a.dims.length) := hat.left
  have h₁ := hat.right
  rw [be_length] at h₁
  have h₂ := h₁.right
  rw [be_length] at h₂
  have hoid : At a.encode 8 (be 4 a.elemOid) := h₂.left
  have h₃ := h₂.right
  rw [be_length] at h₃
  have hdims : At a.encode 12 (a.dims.flatMap dimText) := h₃.left
  have helems := h₃.right
  have hlen : ¬ a.encode.length < 12 := by
    have hle := hoid.le
    rw [be_length] at hle
    omega
  have hcount : (1 : ℕ) * (a.dims.map Prod.fst).prod ≤ 10000000 := by
    rw [one_mul, a.count]
    exact a.count_le
  have hread := readDims_at a.sizes hcount le_rfl hdims
  rw [one_mul, a.count, Nat.cast_one] at hread
  have hfound := readElems_at a.encode_length a.elems_word helems
  rw [decodeBinArray, if_neg hlen, rd_at (by omega) (by omega) hndim, Outcome.ok_bind,
    rd_at a.oid_word.1 a.oid_word.2 hoid, Outcome.ok_bind, if_neg (by omega), if_pos (by omega),
    Int.toNat_natCast, hread, Outcome.ok_bind]
  dsimp only
  rw [Int.toNat_natCast, hfound, Outcome.ok_bind]
  rfl

/-- The decoder ends on every slice, reads every array back, and finds as many elements as
the header announces. -/
theorem decodeBinArray_correct (b : Bytes) (hb : b.length < 2 ^ 63) :
    (decodeBinArray b).Safe ∧
    (∀ a : BinArray, decodeBinArray a.encode = .ok (a.elemOid, a.elems)) ∧
    ∀ oid elems, decodeBinArray b = .ok (oid, elems) → wordAt b 0 ≠ 0 →
      elems.length = (dimSizes b (wordAt b 0).toNat 12).prod :=
  ⟨decodeBinArray_safe hb, decodeBinArray_encode, fun _ _ => decodeBinArray_count⟩

/-- Two rows of a NULL and a text. -/
def sampleArray : BinArray where
  dims := [(2, 1), (2, -3)]
  flags := 1
  elemOid := 25
  elems := [some [0x61], none, none, some [0x62, 0x63]]
  rank := by decide
  sizes := by decide
  count := by decide
  count_le := by decide
  oid_word := by decide
  elems_word := by simp

theorem decodeBinArray_correct_sample : (decodeBinArray sampleArray.encode).Safe ∧
    (∀ a : BinArray, decodeBinArray a.encode = .ok (a.elemOid, a.elems)) ∧
    ∀ oid elems, decodeBinArray sampleArray.encode = .ok (oid, elems) →
      wordAt sampleArray.encode 0 ≠ 0 →
      elems.length = (dimSizes sampleArray.encode (wordAt sampleArray.encode 0).toNat 12).prod :=
  decodeBinArray_correct sampleArray.encode (by decide)

end MiddleWhere.Net

import MiddleWhere.Net.Verbatim

/-!
# A statement with nothing to inline

The scanner always runs to the end of a statement, and cuts its text between characters only.
Where it meets no placeholder of a bound parameter outside quotes and comments, it copies the
statement to the byte.
-/

namespace MiddleWhere.Net
open Str

section
variable {ε : Type} {sql : String} {rendered : List String} {i more : ℕ} {c : UInt8}
  {st st' : ScanState} {copied out : Bytes}

/-! ## The scanner does not fail -/

/-- Where the bytes from `i` to `j` are ASCII, `j` lies between two characters. -/
theorem boundary_after {j : ℕ} {a : UInt8} (ha : (asBytes sql)[j]? = some a)
    (hascii : a < 0x80) : isCharBoundary (asBytes sql) (j + 1) = true := by
  have hj : j < (asBytes sql).length := (List.getElem?_eq_some_iff.mp ha).1
  by_cases hend : j + 1 = (asBytes sql).length
  · rw [hend]
    exact isCharBoundary_length _
  · have hlt : j + 1 < (asBytes sql).length := by omega
    have hb : (asBytes sql)[j + 1]? = some (asBytes sql)[j + 1] := List.getElem?_eq_getElem hlt
    have hlead := boundary_after_ascii ha hascii hb
    simp [isCharBoundary, hb, hlead]

theorem digits_boundary (h : (asBytes sql)[i]? = some 0x24) :
    isCharBoundary (asBytes sql)
      (i + 1 + (((asBytes sql).drop (i + 1)).takeWhile isDigit).length) = true := by
  set digits := ((asBytes sql).drop (i + 1)).takeWhile isDigit with hdigits
  cases hn : digits.length with
  | zero => exact boundary_after h (by decide)
  | succ n =>
    have hlast : digits[n]? = some digits[n] := List.getElem?_eq_getElem (by omega)
    have hmem : digits[n] ∈ digits := List.getElem_mem _
    obtain ⟨tail, htail⟩ : digits <+: (asBytes sql).drop (i + 1) := List.takeWhile_prefix _
    have hbyte : (asBytes sql)[i + 1 + n]? = some digits[n] := by
      rw [← List.getElem?_drop, ← htail, List.getElem?_append_left (by omega), hlast]
    exact boundary_after hbyte (isDigit_ascii (List.mem_takeWhile_imp hmem))

theorem placeholder_ok (h : (asBytes sql)[i]? = some 0x24) :
    ∃ r, (placeholder sql rendered i : Outcome ε _) = .ok r := by
  have hi : i < (asBytes sql).length := (List.getElem?_eq_some_iff.mp h).1
  have hstart := boundary_after h (by decide)
  have hstop := digits_boundary h
  have hlen : (((asBytes sql).drop (i + 1)).takeWhile isDigit).length ≤ _ :=
    (List.takeWhile_prefix isDigit).length_le
  rw [List.length_drop] at hlen
  simp only [placeholder, strSlice]
  rw [if_pos ⟨by omega, hstart, hstop⟩, Outcome.ok_bind]
  split_ifs with hindex
  · rw [Outcome.index_of_lt (by omega)]
    exact ⟨_, rfl⟩
  · rw [Outcome.slice_of_le (by omega) (by omega)]
    exact ⟨_, rfl⟩

theorem dollarOpen_ok : ∃ r, (dollarOpen sql i c : Outcome ε _) = .ok r := by
  simp only [dollarOpen]
  split_ifs with hclosed
  · have hj := (List.getElem?_eq_some_iff.mp hclosed).1
    rw [Outcome.slice_of_le (by omega) (by omega)]
    exact ⟨_, rfl⟩
  · exact ⟨_, rfl⟩

theorem scanStep_ok (h : (asBytes sql)[i]? = some c) :
    ∃ r, (scanStep sql rendered i c st : Outcome ε _) = .ok r := by
  cases st with
  | normal =>
    simp only [scanStep, normalStep]
    split_ifs with _ _ _ _ hdigit
    · exact ⟨_, rfl⟩
    · exact ⟨_, rfl⟩
    · exact ⟨_, rfl⟩
    · exact ⟨_, rfl⟩
    · obtain ⟨rfl, -⟩ := hdigit
      exact placeholder_ok h
    · exact dollarOpen_ok
    · exact ⟨_, rfl⟩
  | sQuote => exact ⟨_, rfl⟩
  | dQuote => exact ⟨_, rfl⟩
  | line => exact ⟨_, rfl⟩
  | block =>
    simp only [scanStep]
    split_ifs
    · exact ⟨_, rfl⟩
    · exact ⟨_, rfl⟩
  | dollar delim =>
    simp only [scanStep]
    split_ifs
    · exact ⟨_, rfl⟩
    · exact ⟨_, rfl⟩

theorem scan_ok : ∃ out', (scan sql rendered st i out : Outcome ε Bytes) = .ok out' := by
  induction hn : (asBytes sql).length - i using Nat.strong_induction_on generalizing i st out with
  | _ n ih =>
    rw [scan]
    by_cases hi : i < (asBytes sql).length
    · rw [dif_pos hi]
      obtain ⟨⟨st', copied, more⟩, hstep⟩ :
          ∃ r, (scanStep sql rendered i (asBytes sql)[i] st : Outcome ε _) = .ok r :=
        scanStep_ok (List.getElem?_eq_getElem hi)
      rw [hstep]
      exact ih _ (by omega) rfl
    · rw [dif_neg hi]
      exact ⟨out, rfl⟩

/-- For every text and every list of literals, the scan ends without a failed slice. -/
theorem inlineParams_ok : ∃ inlined, (inlineParams sql rendered : Outcome ε String) = .ok inlined := by
  obtain ⟨out, hscan⟩ : ∃ out, (scan sql rendered .normal 0 [] : Outcome ε Bytes) = .ok out :=
    scan_ok
  rw [inlineParams, hscan]
  exact ⟨_, rfl⟩

/-! ## Placeholders that are met -/

/-- The scanner comes to byte `i` in state `st`. -/
inductive Visits (ε : Type) (sql : String) (rendered : List String) : ScanState → ℕ → Prop
  | start : Visits ε sql rendered .normal 0
  | step {st st' : ScanState} {i more : ℕ} {c : UInt8} {copied : Bytes} :
      Visits ε sql rendered st i → (asBytes sql)[i]? = some c →
      (scanStep sql rendered i c st : Outcome ε _) = .ok (st', copied, more) →
      Visits ε sql rendered st' (i + 1 + more)

/-- The number that digits spell. -/
def number (digits : Bytes) : ℕ := digits.foldl (fun acc b => acc * 10 + (b.toNat - 0x30)) 0

/-- At byte `i` stands `$k`, for a `k` from one to `count`. -/
def Placeholder (sql : String) (count i : ℕ) : Prop :=
  let digits := ((asBytes sql).drop (i + 1)).takeWhile isDigit
  (asBytes sql)[i]? = some 0x24 ∧ 1 ≤ number digits ∧ number digits ≤ count

/-- No placeholder of a literal stands where the scanner looks for one. -/
def InlinesNothing (ε : Type) (sql : String) (rendered : List String) : Prop :=
  ∀ i, Visits ε sql rendered .normal i → ¬ Placeholder sql rendered.length i

theorem InlinesNothing.empty : InlinesNothing ε sql [] := by
  intro i _ hplace
  have hpos := hplace.2.1
  have hle := hplace.2.2
  rw [List.length_nil] at hle
  omega

theorem parseIndex_within {digits : Bytes} {count : ℕ}
    (h : 1 ≤ parseIndex digits ∧ parseIndex digits ≤ count) :
    1 ≤ number digits ∧ number digits ≤ count := by
  obtain ⟨hpos, hle⟩ := h
  simp only [parseIndex] at hpos hle
  split_ifs at hpos hle
  · exact ⟨hpos, hle⟩
  · omega

/-- A number that no literal belongs to is copied. -/
theorem placeholder_outside (h : (asBytes sql)[i]? = some 0x24)
    (hnone : ¬ Placeholder sql rendered.length i) :
    (placeholder sql rendered i : Outcome ε _) = placeholder sql [] i := by
  set digits := ((asBytes sql).drop (i + 1)).takeWhile isDigit with hdigits
  have htake : ((asBytes sql).drop (i + 1)).take digits.length = digits :=
    (List.prefix_iff_eq_take.mp (List.takeWhile_prefix _)).symm
  have hout : ¬ (1 ≤ parseIndex digits ∧ parseIndex digits ≤ rendered.length) :=
    fun hindex => hnone ⟨h, parseIndex_within hindex⟩
  have hout' : ¬ (1 ≤ parseIndex digits ∧ parseIndex digits ≤ ([] : List String).length) := by
    rw [List.length_nil]
    omega
  simp only [placeholder, strSlice, ← hdigits, Nat.add_sub_cancel_left, htake]
  split_ifs
  · rw [Outcome.ok_bind, Outcome.ok_bind, if_neg hout, if_neg hout']
  · rfl

theorem scanStep_outside (h : (asBytes sql)[i]? = some c)
    (hnone : st = .normal → ¬ Placeholder sql rendered.length i) :
    (scanStep sql rendered i c st : Outcome ε _) = scanStep sql [] i c st := by
  cases st with
  | normal =>
    simp only [scanStep, normalStep]
    congr 4
    split_ifs with hdigit
    · obtain ⟨rfl, -⟩ := hdigit
      exact placeholder_outside h (hnone rfl)
    · rfl
    · rfl
  | sQuote => rfl
  | dQuote => rfl
  | line => rfl
  | block => rfl
  | dollar delim => rfl

/-- Literals that are not asked for do not change the scan. -/
theorem scan_outside (hinv : InlinesNothing ε sql rendered) (hvisit : Visits ε sql rendered st i) :
    (scan sql rendered st i out : Outcome ε Bytes) = scan sql [] st i out := by
  induction hn : (asBytes sql).length - i using Nat.strong_induction_on generalizing i st out with
  | _ n ih =>
    rw [scan, scan]
    by_cases hi : i < (asBytes sql).length
    · rw [dif_pos hi, dif_pos hi]
      have hc : (asBytes sql)[i]? = some (asBytes sql)[i] := List.getElem?_eq_getElem hi
      have hnone : st = .normal → ¬ Placeholder sql rendered.length i := by
        rintro rfl
        exact hinv i hvisit
      have hsame : (scanStep sql rendered i _ st : Outcome ε _) = scanStep sql [] i _ st :=
        scanStep_outside hc hnone
      obtain ⟨⟨st', copied, more⟩, hstep⟩ :
          ∃ r, (scanStep sql rendered i (asBytes sql)[i] st : Outcome ε _) = .ok r :=
        scanStep_ok hc
      rw [← hsame, hstep]
      exact ih _ (by omega) (hvisit.step hc hstep) rfl
    · rw [dif_neg hi, dif_neg hi]

theorem Substituted.empty {x y : Bytes} (h : Substituted [] x y) : x = y := by
  induction h with
  | nil => rfl
  | copied b _ ih => rw [ih]
  | replaced _ _ htext _ _ => simp at htext

theorem inlineParams_empty : (inlineParams sql [] : Outcome ε String) = .ok sql := by
  obtain ⟨inlined, hinlined⟩ :
      ∃ inlined, (inlineParams sql [] : Outcome ε String) = .ok inlined := inlineParams_ok
  have hbytes := (inlineParams_substituted hinlined).empty
  have htext := congrArg fromUtf8Lossy hbytes
  rw [fromUtf8Lossy_asBytes, fromUtf8Lossy_asBytes] at htext
  rw [hinlined, htext]

end

/-- Without a placeholder of a bound parameter where the scanner looks for one, a statement is
handed over as it is, and with no parameters every statement is. -/
theorem inlineParams_identity (ε : Type) (sql : String) (rendered : List String) :
    (InlinesNothing ε sql rendered → (inlineParams sql rendered : Outcome ε String) = .ok sql) ∧
      (inlineParams sql [] : Outcome ε String) = .ok sql := by
  constructor
  · intro hinv
    have hsame : (scan sql rendered .normal 0 [] : Outcome ε Bytes) = scan sql [] .normal 0 [] :=
      scan_outside hinv .start
    have hempty : (inlineParams sql [] : Outcome ε String) = .ok sql := inlineParams_empty
    rw [inlineParams, hsame]
    exact hempty
  · exact inlineParams_empty

/-- `'$1'` with one literal: the scanner meets the placeholder inside the quotes. -/
theorem inlineParams_identity_quoted :
    (inlineParams "'$1'" ["7"] : Outcome Unit String) = .ok "'$1'" := by
  apply (inlineParams_identity Unit "'$1'" ["7"]).1
  intro i hvisit hplace
  have hquoted : ∀ st j, Visits Unit "'$1'" ["7"] st j →
      (st = .normal ∧ (j = 0 ∨ j = 4)) ∨ (st = .sQuote ∧ (j = 1 ∨ j = 2 ∨ j = 3)) := by
    intro st j h
    induction h with
    | start => exact Or.inl ⟨rfl, Or.inl rfl⟩
    | step hprev hc hstep ih =>
      rcases ih with ⟨rfl, rfl | rfl⟩ | ⟨rfl, rfl | rfl | rfl⟩
      · obtain rfl := Option.some.inj hc
        cases hstep
        exact Or.inr ⟨rfl, Or.inl rfl⟩
      · cases hc
      · obtain rfl := Option.some.inj hc
        cases hstep
        exact Or.inr ⟨rfl, Or.inr (Or.inl rfl)⟩
      · obtain rfl := Option.some.inj hc
        cases hstep
        exact Or.inr ⟨rfl, Or.inr (Or.inr rfl)⟩
      · obtain rfl := Option.some.inj hc
        cases hstep
        exact Or.inl ⟨rfl, Or.inr rfl⟩
  obtain ⟨-, rfl | rfl⟩ | ⟨hst, -⟩ := hquoted _ _ hvisit
  · exact absurd hplace.1 (by decide)
  · exact absurd hplace.1 (by decide)
  · cases hst

end MiddleWhere.Net

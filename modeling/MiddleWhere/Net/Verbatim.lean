import MiddleWhere.Data.Utf8
import MiddleWhere.Net.Mediation
import MiddleWhere.Net.PgPortals

/-!
# The bytes of a statement

A statement arrives as bytes and is handed over as a string, whose bytes the backend receives.
Three paths lead there: a MySQL query, a simple query, and a Parse whose text has its
placeholders replaced at each Bind. What differs from the client's bytes was not UTF-8, or
stood behind a NUL.
-/

namespace MiddleWhere.Net
open Prog Firewall Str

/-! ## Substitution -/

/-- The second text is the first with some of its placeholders replaced. -/
inductive Substituted (rendered : List String) : Bytes → Bytes → Prop
  | nil : Substituted rendered [] []
  | copied (b : UInt8) {x y : Bytes} : Substituted rendered x y →
      Substituted rendered (b :: x) (b :: y)
  | replaced {digits x y : Bytes} {text : String} : (∀ b ∈ digits, isDigit b = true) →
      1 ≤ parseIndex digits → rendered[parseIndex digits - 1]? = some text →
      Substituted rendered x y →
      Substituted rendered (0x24 :: (digits ++ x)) (asBytes text ++ y)

theorem Substituted.copies {rendered : List String} {x y : Bytes} (h : Substituted rendered x y)
    (front : Bytes) : Substituted rendered (front ++ x) (front ++ y) := by
  induction front with
  | nil => exact h
  | cons b front ih => exact .copied b ih

theorem isDigit_ascii {b : UInt8} (h : isDigit b = true) : b < 0x80 := by
  simp only [isDigit, Bool.and_eq_true, decide_eq_true_eq, UInt8.le_iff_toNat_le] at h
  rw [UInt8.lt_iff_toNat_lt]
  exact lt_of_le_of_lt h.2 (by decide)

/-- Text stays text: a placeholder is ASCII, and what replaces it is a string. -/
theorem Substituted.valid {rendered : List String} {x y : Bytes} (h : Substituted rendered x y)
    {front : Bytes} (hx : Valid (front ++ x)) : Valid (front ++ y) := by
  induction h generalizing front with
  | nil => exact hx
  | @copied b x y _ ih =>
    have hmoved : Valid (front ++ [b] ++ x) := by simpa using hx
    simpa using ih hmoved
  | @replaced digits x y text hdigits _ _ _ ih =>
    obtain ⟨hfront, hrest⟩ := hx.split (by decide)
    have hx' : Valid ([] ++ x) := hrest.of_ascii_append fun b hb => isDigit_ascii (hdigits b hb)
    exact hfront.append (Valid.append ⟨text, rfl⟩ (ih hx'))

/-! ## The scanner -/

section
variable {ε : Type} {sql : String} {rendered : List String} {i more : ℕ} {c : UInt8}
  {st st' : ScanState} {copied : Bytes}

/-- What a step copies, or the placeholder that it replaces. -/
def Scanned (sql : String) (rendered : List String) (i : ℕ) (copied : Bytes) (more : ℕ) : Prop :=
  (asBytes sql).drop i = copied ++ (asBytes sql).drop (i + 1 + more) ∨
    ∃ digits text, (asBytes sql).drop i = 0x24 :: (digits ++ (asBytes sql).drop (i + 1 + more)) ∧
      (∀ b ∈ digits, isDigit b = true) ∧ 1 ≤ parseIndex digits ∧
      rendered[parseIndex digits - 1]? = some text ∧ copied = asBytes text

/-- The delimiter that closes a quoted text is not empty. -/
def Opened : ScanState → Prop
  | .dollar delim => delim ≠ []
  | _ => True

theorem scanned_take (h : ((asBytes sql).drop i).take (1 + more) = copied) :
    Scanned sql rendered i copied more := by
  left
  rw [← h, Nat.add_assoc, ← List.drop_drop, List.take_append_drop]

theorem scanned_one (h : (asBytes sql)[i]? = some c) : Scanned sql rendered i [c] 0 := by
  apply scanned_take
  rw [← List.head?_drop] at h
  obtain ⟨tail, htail⟩ := List.head?_eq_some_iff.mp h
  rw [htail]
  rfl

theorem scanned_two {d : UInt8} (h : (asBytes sql)[i]? = some c)
    (hnext : (asBytes sql)[i + 1]? = some d) : Scanned sql rendered i [c, d] 1 := by
  apply scanned_take
  rw [← List.head?_drop] at h hnext
  obtain ⟨tail, htail⟩ := List.head?_eq_some_iff.mp h
  rw [← List.drop_drop, htail, List.drop_succ_cons, List.drop_zero] at hnext
  obtain ⟨tail', rfl⟩ := List.head?_eq_some_iff.mp hnext
  rw [htail]
  rfl

theorem placeholder_scanned (h : (asBytes sql)[i]? = some 0x24)
    (hstep : (placeholder sql rendered i : Outcome ε _) = .ok (st', copied, more)) :
    Scanned sql rendered i copied more ∧ Opened st' := by
  simp only [placeholder] at hstep
  obtain ⟨number, hnumber, hrest⟩ := Outcome.bind_eq_ok_iff.mp hstep
  set digits := ((asBytes sql).drop (i + 1)).takeWhile isDigit with hdigits
  have htake : ((asBytes sql).drop (i + 1)).take digits.length = digits :=
    (List.prefix_iff_eq_take.mp (List.takeWhile_prefix _)).symm
  obtain rfl : digits = number := by
    simp only [strSlice, Nat.add_sub_cancel_left, htake] at hnumber
    split_ifs at hnumber
    exact Outcome.ok.inj hnumber
  split_ifs at hrest with hindex
  · obtain ⟨text, htext, hrest⟩ := Outcome.bind_eq_ok_iff.mp hrest
    obtain ⟨rfl, rfl, rfl⟩ : .normal = st' ∧ asBytes text = copied ∧ digits.length = more := by
      simpa using hrest
    refine ⟨Or.inr ⟨digits, text, ?_, ?_, hindex.1, ?_, rfl⟩, trivial⟩
    · obtain ⟨hi, hget⟩ := List.getElem?_eq_some_iff.mp h
      rw [List.drop_eq_getElem_cons hi, hget]
      congr 1
      conv_lhs => rw [← List.take_append_drop digits.length ((asBytes sql).drop (i + 1)), htake]
      rw [List.drop_drop]
    · exact fun b hb => List.mem_takeWhile_imp hb
    · unfold Outcome.index at htext
      split at htext
      · rename_i found hfound
        rw [hfound, Outcome.ok.inj htext]
      · cases htext
  · obtain ⟨text, hslice, hrest⟩ := Outcome.bind_eq_ok_iff.mp hrest
    obtain ⟨-, -, htext⟩ := Outcome.slice_eq_ok_iff.mp hslice
    obtain ⟨rfl, rfl, rfl⟩ : .normal = st' ∧ text = copied ∧ digits.length = more := by
      simpa using hrest
    refine ⟨scanned_take ?_, trivial⟩
    rw [← htext]
    congr 1
    omega

theorem dollarOpen_scanned (h : (asBytes sql)[i]? = some c)
    (hstep : (dollarOpen sql i c : Outcome ε _) = .ok (st', copied, more)) :
    Scanned sql rendered i copied more ∧ Opened st' := by
  simp only [dollarOpen] at hstep
  set tag := ((asBytes sql).drop (i + 1)).takeWhile isTagByte
  split_ifs at hstep with hclosed
  · obtain ⟨delim, hslice, hrest⟩ := Outcome.bind_eq_ok_iff.mp hstep
    obtain ⟨-, hlen, hdelim⟩ := Outcome.slice_eq_ok_iff.mp hslice
    obtain ⟨rfl, rfl, rfl⟩ : .dollar delim = st' ∧ delim = copied ∧ tag.length + 1 = more := by
      simpa using hrest
    constructor
    · apply scanned_take
      rw [← hdelim]
      congr 1
      omega
    · rintro rfl
      have hcut := congrArg List.length hdelim
      simp only [List.length_take, List.length_drop, List.length_nil] at hcut
      omega
  · obtain ⟨rfl, rfl, rfl⟩ : .normal = st' ∧ [c] = copied ∧ 0 = more := by
      simpa using hstep
    exact ⟨scanned_one h, trivial⟩

theorem normalStep_scanned (h : (asBytes sql)[i]? = some c)
    (hstep : (normalStep sql rendered i c : Outcome ε _) = .ok (st', copied, more)) :
    Scanned sql rendered i copied more ∧ Opened st' := by
  have hone (hcopy : (Outcome.ok (st', copied, more) : Outcome ε _) = .ok (st', [c], 0)) :
      Scanned sql rendered i copied more := by
    simp only [Outcome.ok.injEq, Prod.mk.injEq] at hcopy
    obtain ⟨-, rfl, rfl⟩ := hcopy
    exact scanned_one h
  simp only [normalStep] at hstep
  split_ifs at hstep with hquote hdouble hdash hslash hdigit hdollar
  · cases hstep
    exact ⟨scanned_one h, trivial⟩
  · cases hstep
    exact ⟨scanned_one h, trivial⟩
  · cases hstep
    obtain ⟨rfl, hnext⟩ := hdash
    exact ⟨scanned_two h hnext, trivial⟩
  · cases hstep
    obtain ⟨rfl, hnext⟩ := hslash
    exact ⟨scanned_two h hnext, trivial⟩
  · obtain ⟨rfl, -⟩ := hdigit
    exact placeholder_scanned h hstep
  · exact dollarOpen_scanned h hstep
  · cases hstep
    exact ⟨scanned_one h, trivial⟩

theorem scanStep_scanned (hst : Opened st) (h : (asBytes sql)[i]? = some c)
    (hstep : (scanStep sql rendered i c st : Outcome ε _) = .ok (st', copied, more)) :
    Scanned sql rendered i copied more ∧ Opened st' := by
  cases st with
  | normal => exact normalStep_scanned h hstep
  | sQuote =>
    cases hstep
    exact ⟨scanned_one h, by split_ifs <;> trivial⟩
  | dQuote =>
    cases hstep
    exact ⟨scanned_one h, by split_ifs <;> trivial⟩
  | line =>
    cases hstep
    exact ⟨scanned_one h, by split_ifs <;> trivial⟩
  | block =>
    simp only [scanStep] at hstep
    split_ifs at hstep with hclose
    · cases hstep
      exact ⟨scanned_two h hclose.2, trivial⟩
    · cases hstep
      exact ⟨scanned_one h, trivial⟩
  | dollar delim =>
    simp only [scanStep] at hstep
    split_ifs at hstep with hclose
    · cases hstep
      refine ⟨scanned_take ?_, trivial⟩
      have hpos := List.length_pos_of_ne_nil hst
      rw [show 1 + (copied.length - 1) = copied.length by omega]
      exact (List.prefix_iff_eq_take.mp hclose).symm
    · cases hstep
      exact ⟨scanned_one h, hst⟩

/-- The scanner replaces placeholders and copies everything else. -/
theorem scan_substituted (hst : Opened st) {out out' : Bytes}
    (h : (scan sql rendered st i out : Outcome ε Bytes) = .ok out') :
    ∃ y, out' = out ++ y ∧ Substituted rendered ((asBytes sql).drop i) y := by
  induction hn : (asBytes sql).length - i using Nat.strong_induction_on generalizing i st out with
  | _ n ih =>
    rw [scan] at h
    by_cases hi : i < (asBytes sql).length
    · rw [dif_pos hi] at h
      have hc : (asBytes sql)[i]? = some (asBytes sql)[i] := List.getElem?_eq_getElem hi
      cases hstep : (scanStep sql rendered i (asBytes sql)[i] st : Outcome ε _) with
      | ok r =>
        obtain ⟨st', copied, more⟩ := r
        rw [hstep] at h
        obtain ⟨hscanned, hst'⟩ := scanStep_scanned hst hc hstep
        obtain ⟨y, rfl, hy⟩ := ih _ (by omega) hst' h rfl
        refine ⟨copied ++ y, List.append_assoc .., ?_⟩
        obtain hcopy | ⟨digits, text, hdrop, hdigits, hindex, htext, rfl⟩ := hscanned
        · rw [hcopy]
          exact hy.copies copied
        · rw [hdrop]
          exact .replaced hdigits hindex htext hy
      | err e =>
        rw [hstep] at h
        cases h
      | panic =>
        rw [hstep] at h
        cases h
    · rw [dif_neg hi] at h
      cases h
      refine ⟨[], (List.append_nil _).symm, ?_⟩
      rw [List.drop_eq_nil_of_le (by omega)]
      exact .nil

/-- The inlined text is the statement with its placeholders replaced, to the byte. -/
theorem inlineParams_substituted {inlined : String}
    (h : (inlineParams sql rendered : Outcome ε String) = .ok inlined) :
    Substituted rendered (asBytes sql) (asBytes inlined) := by
  unfold inlineParams at h
  obtain ⟨out, hscan, hout⟩ := Outcome.bind_eq_ok_iff.mp h
  obtain ⟨y, hout', hy⟩ := scan_substituted (show Opened .normal from trivial) hscan
  rw [List.nil_append] at hout'
  rw [← hout', List.drop_zero] at hy
  have hvalid : Valid out := @Substituted.valid rendered _ _ hy [] ⟨sql, rfl⟩
  obtain rfl : fromUtf8Lossy out = inlined := Outcome.ok.inj hout
  rw [asBytes_lossy_iff.mpr hvalid]
  exact hy

end

end MiddleWhere.Net

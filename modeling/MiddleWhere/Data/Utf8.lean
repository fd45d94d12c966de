import MiddleWhere.Data.Str

/-!
# Characters in bytes

An ASCII character is its own byte, and any other consists of bytes from `0x80` on. Reading
the bytes of a string leniently gives the string back.
-/

namespace MiddleWhere.Str

variable {c : Char} {b : UInt8} {s t : String}

theorem encode_ascii (h : c.toNat < 0x80) :
    String.utf8EncodeChar c = [UInt8.ofNat c.toNat] := by
  have hle : c.val.toNat ≤ 0x7F := by
    have hval : c.toNat = c.val.toNat := rfl
    omega
  simp only [String.utf8EncodeChar, if_pos hle]
  rfl

/-- An ASCII character is known by its byte. -/
theorem eq_of_ascii (h : c.toNat < 0x80) (hb : UInt8.ofNat c.toNat = b) :
    c = Char.ofNat b.toNat := by
  rw [← hb, UInt8.toNat_ofNat_of_lt' (Nat.lt_trans h (by decide)), Char.ofNat_toNat]

theorem val_bounds (c : Char) :
    c.val.toNat < 0xD800 ∨ (0xDFFF < c.val.toNat ∧ c.val.toNat < 0x110000) := c.valid

theorem not_ascii_ofNat {n : ℕ} (hlo : 128 ≤ n) (hhi : n < 256) : ¬ UInt8.ofNat n < 0x80 :=
  (ofNat_lt (k := 128) hhi (by omega)).not.mpr (by omega)

theorem encode_high (h : ¬ c.toNat < 0x80) : ∀ b ∈ String.utf8EncodeChar c, ¬ b < 0x80 := by
  have hval : c.toNat = c.val.toNat := rfl
  have hmax := val_bounds c
  intro b hb
  simp only [String.utf8EncodeChar] at hb
  split_ifs at hb with h1 h2 h3
  · omega
  · simp only [List.mem_cons, List.not_mem_nil, or_false] at hb
    rcases hb with rfl | rfl <;> exact not_ascii_ofNat (by omega) (by omega)
  · simp only [List.mem_cons, List.not_mem_nil, or_false] at hb
    rcases hb with rfl | rfl | rfl <;> exact not_ascii_ofNat (by omega) (by omega)
  · simp only [List.mem_cons, List.not_mem_nil, or_false] at hb
    rcases hb with rfl | rfl | rfl | rfl <;> exact not_ascii_ofNat (by omega) (by omega)

@[simp] theorem asBytes_append : asBytes (s ++ t) = asBytes s ++ asBytes t := by
  simp [asBytes]

/-! ## Reading the bytes back -/

theorem toNat_byte {n : ℕ} (hn : n < 256) : (UInt8.ofNat n).toNat = n :=
  UInt8.toNat_ofNat_of_lt' hn

theorem low_ofNat (n : ℕ) : low (UInt8.ofNat (n % 64 + 128)) = n % 64 := by
  rw [low, toNat_byte (by omega)]
  omega

/-- A second byte that a lead byte from `0xC2` to `0xF4` admits. -/
theorem secondAllowed_ofNat {lead second : ℕ} (hlead : lead < 256) (hlo : 128 ≤ second)
    (hhi : second < 192) (hE0 : lead = 0xE0 → 0xA0 ≤ second) (hED : lead = 0xED → second ≤ 0x9F)
    (hF0 : lead = 0xF0 → 0x90 ≤ second) (hF4 : lead = 0xF4 → second ≤ 0x8F) :
    secondAllowed (UInt8.ofNat lead) (UInt8.ofNat second) = true := by
  have hsecond : second < 256 := by omega
  have hcont : isContinuation (UInt8.ofNat second) = true :=
    (isContinuation_ofNat hsecond).mpr ⟨hlo, hhi⟩
  unfold secondAllowed
  simp only [hcont, ← UInt8.toNat_inj, UInt8.le_iff_toNat_le, toNat_byte hlead, toNat_byte hsecond,
    UInt8.reduceToNat]
  split_ifs <;> simp <;> omega

/-- A lead byte in terms of its number. -/
theorem lead_tests {n : ℕ} (hn : n < 256) :
    (UInt8.ofNat n < 0x80 ↔ n < 0x80) ∧ (UInt8.ofNat n < 0xC2 ↔ n < 0xC2) ∧
      (0xF4 < UInt8.ofNat n ↔ 0xF4 < n) ∧ (UInt8.ofNat n < 0xE0 ↔ n < 0xE0) ∧
      (UInt8.ofNat n < 0xF0 ↔ n < 0xF0) := by
  simp only [UInt8.lt_iff_toNat_lt, toNat_byte hn, UInt8.reduceToNat, and_self]

theorem lossyChars_encode (rest : List UInt8) :
    lossyChars (String.utf8EncodeChar c ++ rest) = c :: lossyChars rest := by
  have hmax := val_bounds c
  have hback : Char.ofNat c.val.toNat = c := Char.ofNat_toNat c
  simp only [String.utf8EncodeChar]
  generalize c.val.toNat = n at hmax hback ⊢
  by_cases h1 : n ≤ 0x7F
  · have htests := lead_tests (n := n) (by omega)
    rw [if_pos h1, List.singleton_append, lossyChars.eq_def]
    simp only [htests, show n < 0x80 by omega, if_true, toNat_byte (show n < 256 by omega), hback]
  · rw [if_neg h1]
    by_cases h2 : n ≤ 0x7FF
    · have htests := lead_tests (n := n / 64 % 32 + 192) (by omega)
      have hsecond : secondAllowed (UInt8.ofNat (n / 64 % 32 + 192))
          (UInt8.ofNat (n % 64 + 128)) = true :=
        secondAllowed_ofNat (by omega) (by omega) (by omega) (by omega) (by omega) (by omega)
          (by omega)
      have hvalue : (n / 64 % 32 + 192) % 32 * 64 + n % 64 = n := by omega
      rw [if_pos h2, List.cons_append, List.singleton_append, lossyChars.eq_def]
      simp only [htests, hsecond, low_ofNat, toNat_byte (show n / 64 % 32 + 192 < 256 by omega),
        hvalue, hback, Bool.or_eq_true, decide_eq_true_eq, Bool.not_true, Bool.false_eq_true,
        if_false]
      rw [if_neg (by omega), if_neg (by omega), if_pos (by omega)]
    · rw [if_neg h2]
      have hcont : ∀ m, isContinuation (UInt8.ofNat (m % 64 + 128)) = true := isContinuation_low
      by_cases h3 : n ≤ 0xFFFF
      · have htests := lead_tests (n := n / 4096 % 16 + 224) (by omega)
        have hsecond : secondAllowed (UInt8.ofNat (n / 4096 % 16 + 224))
            (UInt8.ofNat (n / 64 % 64 + 128)) = true :=
          secondAllowed_ofNat (by omega) (by omega) (by omega) (by omega) (by omega) (by omega)
            (by omega)
        have hvalue : ((n / 4096 % 16 + 224) % 16 * 64 + n / 64 % 64) * 64 + n % 64 = n := by omega
        rw [if_pos h3, List.cons_append, List.cons_append, List.singleton_append,
          lossyChars.eq_def]
        simp only [htests, hsecond, hcont, low_ofNat,
          toNat_byte (show n / 4096 % 16 + 224 < 256 by omega), hvalue, hback, Bool.or_eq_true,
          decide_eq_true_eq, Bool.not_true, Bool.false_eq_true, if_false]
        rw [if_neg (by omega), if_neg (by omega), if_neg (by omega), if_pos (by omega)]
      · have htests := lead_tests (n := n / 262144 % 8 + 240) (by omega)
        have hsecond : secondAllowed (UInt8.ofNat (n / 262144 % 8 + 240))
            (UInt8.ofNat (n / 4096 % 64 + 128)) = true :=
          secondAllowed_ofNat (by omega) (by omega) (by omega) (by omega) (by omega) (by omega)
            (by omega)
        have hvalue : (((n / 262144 % 8 + 240) % 8 * 64 + n / 4096 % 64) * 64 + n / 64 % 64) * 64 +
            n % 64 = n := by omega
        rw [if_neg h3, List.cons_append, List.cons_append, List.cons_append,
          List.singleton_append, lossyChars.eq_def]
        simp only [htests, hsecond, hcont, low_ofNat,
          toNat_byte (show n / 262144 % 8 + 240 < 256 by omega), hvalue, hback, Bool.or_eq_true,
          decide_eq_true_eq, Bool.not_true, Bool.false_eq_true, if_false]
        rw [if_neg (by omega), if_neg (by omega), if_neg (by omega), if_neg (by omega)]

theorem lossyChars_asBytes (cs : List Char) :
    lossyChars (cs.flatMap String.utf8EncodeChar) = cs := by
  induction cs with
  | nil => rfl
  | cons c cs ih => rw [List.flatMap_cons, lossyChars_encode, ih]

/-- The bytes of a string are read back as the string. -/
theorem fromUtf8Lossy_asBytes (s : String) : fromUtf8Lossy (asBytes s) = s := by
  rw [fromUtf8Lossy, asBytes, lossyChars_asBytes, String.ofList_toList]

/-! ## Bytes that are text -/

/-- The bytes are those of a string. -/
def Valid (bytes : List UInt8) : Prop := ∃ s : String, asBytes s = bytes

variable {x y : List UInt8} {a : UInt8}

/-- Only text survives the lenient reading unchanged. -/
theorem asBytes_lossy_iff : asBytes (fromUtf8Lossy x) = x ↔ Valid x := by
  constructor
  · exact fun h => ⟨_, h⟩
  · rintro ⟨s, rfl⟩
    rw [fromUtf8Lossy_asBytes]

instance : Decidable (Valid x) := decidable_of_iff _ asBytes_lossy_iff

theorem valid_nil : Valid [] := ⟨"", rfl⟩

theorem Valid.append (hx : Valid x) (hy : Valid y) : Valid (x ++ y) := by
  obtain ⟨s, rfl⟩ := hx
  obtain ⟨t, rfl⟩ := hy
  exact ⟨s ++ t, asBytes_append⟩

theorem ascii_not_mem_tail {lead : UInt8} {tail : List UInt8} (hb : b < 0x80)
    (henc : String.utf8EncodeChar c = lead :: tail) : b ∉ tail := by
  obtain ⟨lead', tail', henc', -, -, hcont⟩ := encode_shape c
  obtain ⟨rfl, rfl⟩ := List.cons.inj (henc.symm.trans henc')
  intro hmem
  have hhigh := hcont b hmem
  simp only [isContinuation, Bool.and_eq_true, decide_eq_true_eq] at hhigh
  exact absurd hb (UInt8.not_lt.mpr hhigh.1)

/-- An ASCII byte of text is a character of it. -/
theorem encode_split {cs : List Char} (hb : b < 0x80)
    (h : cs.flatMap String.utf8EncodeChar = x ++ b :: y) :
    ∃ front back : List Char, x = front.flatMap String.utf8EncodeChar ∧
      y = back.flatMap String.utf8EncodeChar := by
  induction cs generalizing x with
  | nil => simp at h
  | cons c cs ih =>
    obtain ⟨lead, tail, henc, -, hshort, -⟩ := encode_shape c
    rw [List.flatMap_cons, henc, List.cons_append] at h
    cases x with
    | nil =>
      obtain ⟨rfl, hrest⟩ := List.cons.inj h
      rw [hshort hb, List.nil_append] at hrest
      exact ⟨[], cs, rfl, hrest.symm⟩
    | cons a x =>
      obtain ⟨rfl, hrest⟩ := List.cons.inj h
      -- the byte lies beyond this character
      obtain ⟨mid, hx, hcs⟩ | ⟨mid, htail, hy⟩ := List.append_eq_append_iff.mp hrest
      · obtain ⟨front, back, hmid, hback⟩ := ih hcs
        refine ⟨c :: front, back, ?_, hback⟩
        rw [List.flatMap_cons, henc, hx, hmid, List.cons_append]
      · cases mid with
        | nil =>
          obtain ⟨front, back, hmid, hback⟩ := @ih [] (by simpa using hy.symm)
          refine ⟨c :: front, back, ?_, hback⟩
          rw [List.flatMap_cons, henc, htail, ← hmid]
          simp
        | cons d mid =>
          obtain ⟨rfl, -⟩ := List.cons.inj hy
          exact absurd (by rw [htail]; simp) (ascii_not_mem_tail hb henc)

theorem Valid.split (h : Valid (x ++ b :: y)) (hb : b < 0x80) : Valid x ∧ Valid y := by
  obtain ⟨s, hs⟩ := h
  obtain ⟨front, back, rfl, rfl⟩ := encode_split hb hs
  exact ⟨⟨String.ofList front, by simp [asBytes]⟩, String.ofList back, by simp [asBytes]⟩

/-- After ASCII bytes text begins anew. -/
theorem Valid.of_ascii_append (h : Valid (x ++ y)) (hx : ∀ b ∈ x, b < 0x80) : Valid y := by
  induction x with
  | nil => exact h
  | cons b x ih =>
    have hsplit := @Valid.split b [] (x ++ y) h (hx b List.mem_cons_self)
    exact ih hsplit.2 fun a ha => hx a (List.mem_cons_of_mem b ha)

/-! ## ASCII in bytes that need not be text -/

theorem toNat_ofNat_char {n : ℕ} (h : n.isValidChar) : (Char.ofNat n).toNat = n := by
  simp [Char.ofNat, h, Char.toNat, Char.ofNatAux]

theorem high_iff : ¬ b < 0x80 ↔ 128 ≤ b.toNat := by
  rw [UInt8.not_lt, UInt8.le_iff_toNat_le]
  rfl

theorem isContinuation_iff : isContinuation b = true ↔ 128 ≤ b.toNat ∧ b.toNat < 192 := by
  simp [isContinuation, UInt8.le_iff_toNat_le, UInt8.lt_iff_toNat_lt]

theorem secondAllowed_bounds {lead second : UInt8} (h : secondAllowed lead second = true) :
    128 ≤ second.toNat ∧ second.toNat < 192 ∧
      (lead.toNat = 224 → 160 ≤ second.toNat) ∧ (lead.toNat = 237 → second.toNat < 160) ∧
      (lead.toNat = 240 → 144 ≤ second.toNat) ∧ (lead.toNat = 244 → second.toNat < 144) := by
  unfold secondAllowed at h
  simp only [← UInt8.toNat_inj, UInt8.reduceToNat] at h
  split_ifs at h <;>
    simp only [Bool.and_eq_true, decide_eq_true_eq, UInt8.le_iff_toNat_le, UInt8.reduceToNat,
      isContinuation_iff] at h <;>
    omega

/-- A byte that is not ASCII is read with others of the kind, to a character that is not. -/
def ReadHigh (b : UInt8) (rest : List UInt8) : Prop := ∃ c dropped tail,
  rest = dropped ++ tail ∧ (∀ d ∈ dropped, ¬ d < 0x80) ∧ ¬ c.toNat < 0x80 ∧
    lossyChars (b :: rest) = c :: lossyChars tail

theorem ReadHigh.replaced (dropped : List UInt8) {tail : List UInt8} (hdropped : ∀ d ∈ dropped, ¬ d < 0x80)
    (h : lossyChars (b :: (dropped ++ tail)) = replacement :: lossyChars tail) :
    ReadHigh b (dropped ++ tail) :=
  ⟨replacement, dropped, tail, rfl, hdropped, by decide, h⟩

theorem ReadHigh.decoded (n : ℕ) (dropped : List UInt8) {tail : List UInt8} (hn : n.isValidChar)
    (hhigh : 128 ≤ n) (hdropped : ∀ d ∈ dropped, ¬ d < 0x80)
    (h : lossyChars (b :: (dropped ++ tail)) = Char.ofNat n :: lossyChars tail) :
    ReadHigh b (dropped ++ tail) := by
  refine ⟨Char.ofNat n, dropped, tail, rfl, hdropped, ?_, h⟩
  rw [toNat_ofNat_char hn]
  omega

theorem readHigh_three {c d : UInt8} {rest : List UInt8} (hlo : 224 ≤ b.toNat)
    (hhi : b.toNat ≤ 244) (hsecond : secondAllowed b c = true) (hd : isContinuation d = true) :
    ReadHigh b (c :: d :: rest) := by
  have hbounds := secondAllowed_bounds hsecond
  have hc : ¬ c < 0x80 := high_iff.mpr hbounds.1
  have hd' := isContinuation_iff.mp hd
  have hdhigh : ¬ d < 0x80 := high_iff.mpr hd'.1
  have hcd : ∀ x ∈ [c, d], ¬ x < 0x80 :=
    List.forall_mem_cons.mpr ⟨hc, List.forall_mem_singleton.mpr hdhigh⟩
  have htests : ¬ b < 0x80 ∧ ¬ (b < 0xC2 || 0xF4 < b) = true ∧ ¬ b < 0xE0 := by
    simp only [UInt8.lt_iff_toNat_lt, UInt8.reduceToNat, Bool.or_eq_true, decide_eq_true_eq]
    omega
  by_cases hthree : b < 0xF0
  · have hlt : b.toNat < 240 := by simpa [UInt8.lt_iff_toNat_lt] using hthree
    refine .decoded ((b.toNat % 16 * 64 + low c) * 64 + low d) [c, d] ?_ ?_
      hcd ?_
    · unfold Nat.isValidChar low
      omega
    · unfold low
      omega
    · rw [lossyChars.eq_def]
      simp [htests, hsecond, hd, hthree]
  · have hge : 240 ≤ b.toNat := by simpa [UInt8.le_iff_toNat_le] using hthree
    cases rest with
    | nil =>
      refine .replaced [c, d] hcd ?_
      rw [lossyChars.eq_def]
      simp [htests, hsecond, hd, hthree, lossyChars]
    | cons e rest =>
      by_cases he : isContinuation e = true
      · have he' := isContinuation_iff.mp he
        have hde : ∀ x ∈ [d, e], ¬ x < 0x80 := List.forall_mem_cons.mpr
          ⟨hdhigh, List.forall_mem_singleton.mpr (high_iff.mpr he'.1)⟩
        refine .decoded (((b.toNat % 8 * 64 + low c) * 64 + low d) * 64 + low e)
          [c, d, e] ?_ ?_ (List.forall_mem_cons.mpr ⟨hc, hde⟩) ?_
        · unfold Nat.isValidChar low
          omega
        · unfold low
          omega
        · rw [lossyChars.eq_def]
          simp [htests, hsecond, hd, hthree, he]
      · refine .replaced [c, d] hcd ?_
        rw [lossyChars.eq_def]
        simp [htests, hsecond, hd, hthree, he]

theorem readHigh (rest : List UInt8) (h : ¬ b < 0x80) : ReadHigh b rest := by
  by_cases hlead : (b < 0xC2 || 0xF4 < b) = true
  · refine .replaced [] (by simp) ?_
    rw [lossyChars.eq_def]
    simp only [h, hlead, if_true, if_false, List.nil_append]
  have hrange : 194 ≤ b.toNat ∧ b.toNat ≤ 244 := by
    simpa [UInt8.le_iff_toNat_le, UInt8.lt_iff_toNat_lt] using hlead
  cases rest with
  | nil =>
    refine .replaced [] (by simp) ?_
    rw [lossyChars.eq_def]
    simp [h, hlead, lossyChars]
  | cons c rest =>
    by_cases hsecond : secondAllowed b c = true
    · have hbounds := secondAllowed_bounds hsecond
      have hc : ¬ c < 0x80 := high_iff.mpr hbounds.1
      by_cases htwo : b < 0xE0
      · have hlt : b.toNat < 224 := by simpa [UInt8.lt_iff_toNat_lt] using htwo
        refine .decoded (b.toNat % 32 * 64 + low c) [c] ?_ ?_ (by simpa using hc) ?_
        · unfold Nat.isValidChar low
          omega
        · unfold low
          omega
        · rw [lossyChars.eq_def]
          simp [h, hlead, hsecond, htwo]
      · have hge : 224 ≤ b.toNat := by simpa [UInt8.le_iff_toNat_le] using htwo
        have hcut (hstop : lossyChars (b :: c :: rest) = replacement :: lossyChars rest) :
            ReadHigh b (c :: rest) :=
          .replaced [c] (by simpa using hc) hstop
        cases rest with
        | nil =>
          refine hcut ?_
          rw [lossyChars.eq_def]
          simp [h, hlead, hsecond, htwo, lossyChars]
        | cons d rest =>
          by_cases hd : isContinuation d = true
          · exact readHigh_three hge hrange.2 hsecond hd
          · refine hcut ?_
            rw [lossyChars.eq_def]
            simp [h, hlead, hsecond, htwo, hd]
    · refine .replaced [] (by simp) ?_
      rw [lossyChars.eq_def]
      simp [h, hlead, hsecond]

/-- The characters that are read of bytes, ASCII for ASCII. -/
theorem lossyChars_ascii (hb : b < 0x80) :
    lossyChars (b :: x) = Char.ofNat b.toNat :: lossyChars x := by
  rw [lossyChars.eq_def]
  simp only [hb, if_true]

theorem encode_ofNat_ascii (hb : b < 0x80) : String.utf8EncodeChar (Char.ofNat b.toNat) = [b] := by
  have hlt : b.toNat < 128 := UInt8.lt_iff_toNat_lt.mp hb
  have hchar : (Char.ofNat b.toNat).toNat = b.toNat :=
    toNat_ofNat_char (by unfold Nat.isValidChar; omega)
  rw [encode_ascii (by omega), hchar, UInt8.ofNat_toNat]

/-- The ASCII bytes survive the lenient reading, and no others arise. -/
theorem ascii_mem_lossy (ha : a < 0x80) : a ∈ asBytes (fromUtf8Lossy x) ↔ a ∈ x := by
  have hchars (x : List UInt8) : a ∈ (lossyChars x).flatMap String.utf8EncodeChar ↔ a ∈ x := by
    induction hn : x.length using Nat.strong_induction_on generalizing x with
    | _ n ih =>
      cases x with
      | nil => simp [lossyChars]
      | cons b x =>
        by_cases hb : b < 0x80
        · rw [lossyChars_ascii hb, List.flatMap_cons, encode_ofNat_ascii hb, List.singleton_append,
            List.mem_cons, List.mem_cons, ih x.length (by simp [← hn]) x rfl]
        · obtain ⟨c, dropped, tail, rfl, hdropped, hc, heq⟩ := readHigh x hb
          have hne : a ≠ b := fun h => hb (h ▸ ha)
          have hout : a ∉ String.utf8EncodeChar c := fun h => encode_high hc a h ha
          have hskip : a ∉ dropped := fun h => hdropped a h ha
          rw [heq, List.flatMap_cons, List.mem_append, List.mem_cons, List.mem_append,
            ih tail.length (by simp [← hn]) tail rfl]
          simp [hne, hout, hskip]
  rw [fromUtf8Lossy, asBytes, String.toList_ofList]
  exact hchars x

theorem valid_ascii (h : ∀ b ∈ x, b < 0x80) : Valid x := by
  induction x with
  | nil => exact valid_nil
  | cons b x ih =>
    have hone : Valid [b] := ⟨String.ofList [Char.ofNat b.toNat], by
      simp [asBytes, encode_ofNat_ascii (h b List.mem_cons_self)]⟩
    exact hone.append (ih fun c hc => h c (List.mem_cons_of_mem b hc))

/-- What is read as ASCII was ASCII. -/
theorem valid_of_ascii (h : ∀ b ∈ asBytes (fromUtf8Lossy x), b < 0x80) : Valid x := by
  refine valid_ascii fun b hb => ?_
  rw [fromUtf8Lossy, asBytes, String.toList_ofList] at h
  induction x with
  | nil => simp at hb
  | cons a x ih =>
    by_cases ha : a < 0x80
    · rw [lossyChars_ascii ha, List.flatMap_cons, encode_ofNat_ascii ha] at h
      rcases List.mem_cons.mp hb with rfl | hb
      · exact ha
      · exact ih (fun c hc => h c (List.mem_cons_of_mem a hc)) hb
    · obtain ⟨c, _, _, -, -, hc, heq⟩ := readHigh x ha
      rw [heq, List.flatMap_cons] at h
      obtain ⟨d, tail, henc, -⟩ := encode_shape c
      have hd : d ∈ String.utf8EncodeChar c := henc ▸ List.mem_cons_self
      exact absurd (h d (List.mem_append_left _ hd)) (encode_high hc d hd)

end MiddleWhere.Str

import MiddleWhere.Data.Fields
import MiddleWhere.Data.Utf8
import MiddleWhere.Net.Peer

/-!
# Reading a Bind back

The fields of a Bind as a client lays them out, and what the parser finds in the layout. The
parser reads the number of parameters as a signed word, so it sees no parameters where a
client sends 2^15 of them or more.
-/

namespace MiddleWhere.Net

/-! ## The layout -/

def NulFree (s : String) : Prop := ∀ c ∈ s.toList, c ≠ Char.ofNat 0

/-- What a client can put into a Bind: one format for all parameters, one for each, or
none, and as many parameters as the count has room for. -/
structure BindFields where
  portal : String
  stmt : String
  formats : List ℤ
  params : List (Option Bytes)
  resultFormats : List ℤ
  portal_nulFree : NulFree portal
  stmt_nulFree : NulFree stmt
  formats_shape : formats.length = 0 ∨ formats.length = 1 ∨ formats.length = params.length
  formats_word : ∀ f ∈ formats, -2 ^ 15 ≤ f ∧ f < 2 ^ 15
  params_count : params.length < 2 ^ 16

def BindFields.encode (f : BindFields) : Bytes :=
  cstr f.portal ++ (cstr f.stmt ++ (be 2 f.formats.length ++ (f.formats.flatMap (be 2) ++
    (be 2 f.params.length ++ (f.params.flatMap cellText ++
      (be 2 f.resultFormats.length ++ f.resultFormats.flatMap (be 2)))))))

/-- One format for each parameter: text when the client sent none. -/
def BindFields.paramFormats (f : BindFields) : List ℤ :=
  if f.formats.length = 0 then List.replicate f.params.length 0
  else if f.formats.length = 1 then List.replicate f.params.length (f.formats.headD 0)
  else f.formats

def BindFields.message (f : BindFields) : BindMsg :=
  ⟨f.portal, f.stmt, f.paramFormats, f.params⟩

/-! ## Reading the fields -/

section
variable {ε : Type} {buf : Bytes} {pos : ℕ}

theorem asBytes_ne_zero {s : String} (h : NulFree s) : ∀ b ∈ Str.asBytes s, b ≠ 0 := by
  intro b hb hzero
  obtain ⟨c, hc, hb⟩ := List.mem_flatMap.mp hb
  by_cases hascii : c.toNat < 0x80
  · rw [Str.encode_ascii hascii, List.mem_singleton] at hb
    exact h c hc (Str.eq_of_ascii hascii (hb.symm.trans hzero))
  · exact Str.encode_high hascii b hb (hzero ▸ by decide)

theorem readCstr_at {s : String} (hs : NulFree s) (h : At buf pos (cstr s)) :
    (readCstr buf pos : Outcome ε (String × ℕ)) = .ok (s, pos + (cstr s).length) := by
  obtain ⟨rest, hdrop⟩ := h.drop
  have htext : (buf.drop pos).takeWhile (· ≠ 0) = Str.asBytes s := by
    have hnul : ∀ b ∈ Str.asBytes s, (decide (b ≠ 0)) = true := fun b hb =>
      decide_eq_true (asBytes_ne_zero hs b hb)
    rw [hdrop, cstr, List.append_assoc, List.takeWhile_append_of_pos hnul]
    simp
  have hle := h.le
  have hlen : (cstr s).length = (Str.asBytes s).length + 1 := by simp [cstr]
  have hslice := (h.left : At buf pos (Str.asBytes s)).slice (ε := ε)
  unfold readCstr
  rw [htext]
  dsimp only
  rw [hslice, Outcome.ok_bind, Str.fromUtf8Lossy_asBytes, if_pos (by omega), hlen]
  rfl

theorem signed_fromBe_be {width : ℕ} (hwidth : width = 2 ∨ width = 4) {n : ℤ}
    (hlo : -2 ^ (8 * width - 1) ≤ n) (hhi : n < 2 ^ (8 * width - 1)) :
    signed width (fromBe (be width n)) = n := by
  have hbytes : fromBe (be width n) = (n % 2 ^ (8 * width)).toNat := by
    have hlt : (n % 2 ^ (8 * width)).toNat < 2 ^ (8 * width) := by
      rcases hwidth with rfl | rfl <;> omega
    have hbe : be width n = (le width (n % 2 ^ (8 * width)).toNat).reverse := rfl
    rw [hbe, fromBe_reverse, fromLe_le hlt]
  rw [hbytes]
  unfold signed
  rcases hwidth with rfl | rfl
  · split_ifs <;> omega
  · split_ifs <;> omega

theorem readInt_at {width : ℕ} (hwidth : width = 2 ∨ width = 4) {n : ℤ}
    (hlo : -2 ^ (8 * width - 1) ≤ n) (hhi : n < 2 ^ (8 * width - 1)) (h : At buf pos (be width n)) :
    (readInt width buf pos : Outcome ε (ℤ × ℕ)) = .ok (n, pos + width) := by
  have hslice := h.slice (ε := ε)
  rw [be_length] at hslice
  unfold readInt
  rw [hslice, Outcome.ok_bind, signed_fromBe_be hwidth hlo hhi]
  rfl

theorem readFormats_at {fmts : List ℤ} (hword : ∀ f ∈ fmts, -2 ^ 15 ≤ f ∧ f < 2 ^ 15)
    (h : At buf pos (fmts.flatMap (be 2))) :
    (readFormats buf fmts.length pos : Outcome ε (List ℤ × ℕ)) =
      .ok (fmts, pos + (fmts.flatMap (be 2)).length) := by
  induction fmts generalizing pos with
  | nil => rfl
  | cons f fmts ih =>
    rw [List.flatMap_cons] at h
    have hf := hword f (by simp)
    have hhere : (readI16 buf pos : Outcome ε (ℤ × ℕ)) = .ok (f, pos + 2) :=
      readInt_at (.inl rfl) hf.1 hf.2 h.left
    have hrest := h.right
    rw [be_length] at hrest
    rw [List.length_cons, readFormats, hhere, Outcome.ok_bind]
    dsimp only
    rw [ih (fun g hg => hword g (by simp [hg])) hrest, Outcome.ok_bind]
    simp only [List.flatMap_cons, List.length_append, be_length, Nat.add_assoc]
    rfl

theorem readParams_at {params : List (Option Bytes)} (hfits : buf.length < 2 ^ 31)
    (h : At buf pos (params.flatMap cellText)) :
    (readParams buf params.length pos : Outcome ε (List (Option Bytes) × ℕ)) =
      .ok (params, pos + (params.flatMap cellText).length) := by
  induction params generalizing pos with
  | nil => rfl
  | cons p params ih =>
    rw [List.flatMap_cons] at h
    have hrest := ih h.right
    cases p with
    | none =>
      have hlen : (readI32 buf pos : Outcome ε (ℤ × ℕ)) = .ok (-1, pos + 4) :=
        readInt_at (.inr rfl) (by norm_num) (by norm_num) h.left
      rw [cellText, be_length] at hrest
      rw [List.length_cons, readParams, hlen, Outcome.ok_bind]
      dsimp only
      rw [if_pos (by norm_num), hrest, Outcome.ok_bind]
      simp only [List.flatMap_cons, cellText, List.length_append, be_length, Nat.add_assoc]
      rfl
    | some b =>
      have hcell : At buf pos (be 4 b.length ++ b) := h.left
      have hle := hcell.le
      simp only [List.length_append, be_length] at hle
      have hlen : (readI32 buf pos : Outcome ε (ℤ × ℕ)) = .ok ((b.length : ℤ), pos + 4) :=
        readInt_at (.inr rfl) (by omega) (by omega) hcell.left
      have hvalue := hcell.right.slice (ε := ε)
      rw [be_length] at hvalue
      rw [cellText, List.length_append, be_length, ← Nat.add_assoc] at hrest
      rw [List.length_cons, readParams, hlen, Outcome.ok_bind]
      dsimp only
      rw [if_neg (by omega), Int.toNat_natCast, Outcome.addWord_of_lt (by omega), Outcome.ok_bind,
        hvalue, Outcome.ok_bind, hrest, Outcome.ok_bind]
      simp only [List.flatMap_cons, cellText, List.length_append, be_length, Nat.add_assoc]
      rfl

/-- One of the format codes for each parameter, or text. -/
theorem normalizeFormats_of_get {nfmt : ℕ} {fmts : List ℤ} (hnfmt : 2 ≤ nfmt) (is : List ℕ) :
    (normalizeFormats nfmt fmts is : Outcome ε (List ℤ)) =
      .ok (is.map fun i => fmts[i]?.getD 0) := by
  induction is with
  | nil => rfl
  | cons i is ih =>
    rw [normalizeFormats, Outcome.ok_bind, ih]
    · rfl
    · omega
    · omega

theorem normalizeFormats_same {nfmt : ℕ} {fmts : List ℤ} {fmt : ℤ}
    (h : nfmt = 0 ∧ fmt = 0 ∨ nfmt = 1 ∧ fmts[0]? = some fmt) (is : List ℕ) :
    (normalizeFormats nfmt fmts is : Outcome ε (List ℤ)) = .ok (List.replicate is.length fmt) := by
  induction is with
  | nil => rfl
  | cons i is ih =>
    rcases h with ⟨rfl, rfl⟩ | ⟨rfl, hfmt⟩
    · rw [normalizeFormats, Outcome.ok_bind, ih]
      rfl
    · rw [normalizeFormats, Outcome.index, hfmt, Outcome.ok_bind, ih]
      rfl

theorem normalizeFormats_fields (f : BindFields) :
    (normalizeFormats f.formats.length f.formats (List.range f.params.length) :
      Outcome ε (List ℤ)) = .ok f.paramFormats := by
  unfold BindFields.paramFormats
  by_cases hnone : f.formats.length = 0
  · rw [if_pos hnone, normalizeFormats_same (.inl ⟨hnone, rfl⟩), List.length_range]
  · rw [if_neg hnone]
    by_cases hone : f.formats.length = 1
    · obtain ⟨fmt, hfmt⟩ := List.length_eq_one_iff.mp hone
      rw [if_pos hone, normalizeFormats_same (.inr ⟨hone, by rw [hfmt]; rfl⟩), hfmt,
        List.length_range]
      rfl
    · have heach : f.formats.length = f.params.length := by
        have hshape := f.formats_shape
        omega
      rw [if_neg hone, normalizeFormats_of_get (by omega), ← heach]
      refine congrArg Outcome.ok (List.ext_getElem (by simp) fun i hi hi' => ?_)
      simp [hi']

theorem readParams_length {n p q : ℕ} {params : List (Option Bytes)}
    (h : (readParams buf n p : Outcome ε (List (Option Bytes) × ℕ)) = .ok (params, q)) :
    params.length = n := by
  induction n generalizing p q params with
  | zero =>
    obtain ⟨rfl, -⟩ := Prod.mk.inj (Outcome.ok.inj h)
    rfl
  | succ n ih =>
    unfold readParams at h
    obtain ⟨⟨len, p'⟩, -, h⟩ := Outcome.bind_eq_ok_iff.mp h
    dsimp only at h
    split_ifs at h with hnull
    · obtain ⟨⟨more, q'⟩, hmore, h⟩ := Outcome.bind_eq_ok_iff.mp h
      obtain ⟨rfl, -⟩ := Prod.mk.inj (Outcome.ok.inj h)
      rw [List.length_cons, ih hmore]
    · obtain ⟨stop, -, h⟩ := Outcome.bind_eq_ok_iff.mp h
      obtain ⟨value, -, h⟩ := Outcome.bind_eq_ok_iff.mp h
      obtain ⟨⟨more, q'⟩, hmore, h⟩ := Outcome.bind_eq_ok_iff.mp h
      obtain ⟨rfl, -⟩ := Prod.mk.inj (Outcome.ok.inj h)
      rw [List.length_cons, ih hmore]

theorem signed_lt (n : ℕ) : signed 2 n < 2 ^ 15 := by
  unfold signed
  split_ifs <;> omega

/-- Whatever the body, fewer than 2^15 parameters are found in it. -/
theorem parseBind_params_lt {m : BindMsg} (h : (parseBind buf : Outcome ε _) = .ok (some m)) :
    m.params.length < 2 ^ 15 := by
  unfold parseBind at h
  obtain ⟨⟨portal, p₁⟩, -, h⟩ := Outcome.bind_eq_ok_iff.mp h
  obtain ⟨⟨stmt, p₂⟩, -, h⟩ := Outcome.bind_eq_ok_iff.mp h
  obtain ⟨⟨nfmt, p₃⟩, -, h⟩ := Outcome.bind_eq_ok_iff.mp h
  obtain ⟨⟨fmts, p₄⟩, -, h⟩ := Outcome.bind_eq_ok_iff.mp h
  obtain ⟨⟨nparams, p₅⟩, hnparams, h⟩ := Outcome.bind_eq_ok_iff.mp h
  obtain ⟨⟨params, p₆⟩, hparams, h⟩ := Outcome.bind_eq_ok_iff.mp h
  obtain ⟨formats, -, h⟩ := Outcome.bind_eq_ok_iff.mp h
  obtain rfl := Option.some.inj (Outcome.ok.inj h)
  have hcount : nparams < 2 ^ 15 := by
    obtain ⟨bytes, -, hread⟩ := Outcome.bind_eq_ok_iff.mp hnparams
    obtain ⟨hn, -⟩ := Prod.mk.inj (Outcome.ok.inj hread)
    exact hn ▸ signed_lt _
  rw [readParams_length hparams]
  omega

end

/-! ## The round trip -/

theorem parseBind_encode {ε : Type} {f : BindFields} (hfits : f.encode.length < 2 ^ 31)
    (hcount : f.params.length < 2 ^ 15) :
    (parseBind f.encode : Outcome ε _) = .ok (some f.message) := by
  have hformats : f.formats.length < 2 ^ 15 := by
    have hshape := f.formats_shape
    omega
  have hat : At f.encode 0 f.encode := by
    have hstart := At.start f.encode []
    rwa [List.append_nil] at hstart
  have hportal : At f.encode 0 (cstr f.portal) := hat.left
  have h₁ := hat.right
  have hstmt : At f.encode (0 + (cstr f.portal).length) (cstr f.stmt) := h₁.left
  have h₂ := h₁.right
  have hnfmt := h₂.left
  have h₃ := h₂.right
  have hfmts := h₃.left
  have h₄ := h₃.right
  have hnparams := h₄.left
  have hparams := h₄.right.left
  rw [be_length] at h₃ h₄ hfmts hnparams hparams
  rw [be_length] at hparams
  unfold parseBind
  rw [readCstr_at f.portal_nulFree hportal, Outcome.ok_bind]
  dsimp only
  rw [readCstr_at f.stmt_nulFree hstmt, Outcome.ok_bind]
  dsimp only
  rw [readI16, readInt_at (.inl rfl) (by omega) (by omega) hnfmt, Outcome.ok_bind]
  dsimp only
  rw [Int.toNat_natCast, readFormats_at f.formats_word hfmts, Outcome.ok_bind]
  dsimp only
  rw [readI16, readInt_at (.inl rfl) (by omega) (by omega) hnparams, Outcome.ok_bind]
  dsimp only
  rw [Int.toNat_natCast, readParams_at hfits hparams, Outcome.ok_bind]
  dsimp only
  rw [normalizeFormats_fields, Outcome.ok_bind]
  rfl

/-- A Bind that fits into a message is read back if and only if it has fewer than 2^15
parameters. -/
theorem parseBind_encode_iff {ε : Type} (f : BindFields) (hfits : f.encode.length + 4 < 2 ^ 31) :
    (parseBind f.encode : Outcome ε _) = .ok (some f.message) ↔ f.params.length < 2 ^ 15 :=
  ⟨parseBind_params_lt, parseBind_encode (by omega)⟩

/-- A NULL and a value, both in binary. -/
def sampleBind : BindFields where
  portal := "por"
  stmt := "st"
  formats := [1]
  params := [some [0x61, 0x62, 0x63], none]
  resultFormats := []
  portal_nulFree := by simp [NulFree]
  stmt_nulFree := by simp [NulFree]
  formats_shape := .inr (.inl rfl)
  formats_word := by simp
  params_count := by decide

theorem parseBind_encode_sample : sampleBind.encode.length + 4 < 2 ^ 31 ∧
    ((parseBind sampleBind.encode : Outcome String _) = .ok (some sampleBind.message) ↔
      sampleBind.params.length < 2 ^ 15) :=
  ⟨by decide, parseBind_encode_iff sampleBind (by decide)⟩

/-- A Bind of NULLs only. -/
def nullsBind (n : ℕ) (hn : n < 2 ^ 16) : BindFields where
  portal := ""
  stmt := ""
  formats := []
  params := List.replicate n none
  resultFormats := []
  portal_nulFree := by simp [NulFree]
  stmt_nulFree := by simp [NulFree]
  formats_shape := .inl rfl
  formats_word := by simp
  params_count := by rwa [List.length_replicate]

theorem nullsBind_length (n : ℕ) (hn : n < 2 ^ 16) :
    (nullsBind n hn).encode.length = 8 + 4 * n := by
  have hcells : ((List.replicate n none).flatMap cellText).length = 4 * n := by
    rw [List.length_flatMap]
    simp [cellText, be_length, Nat.mul_comm]
  simp only [BindFields.encode, nullsBind, List.length_append, hcells, be_length]
  simp [cstr, Str.asBytes]
  omega

/-- As many NULLs as the signed word cannot count. -/
theorem not_parseBind_encode : ¬ ∀ f : BindFields, f.encode.length + 4 < 2 ^ 31 →
    (parseBind f.encode : Outcome String _) = .ok (some f.message) := by
  intro hall
  have hn : 2 ^ 15 < 2 ^ 16 := by norm_num
  have hlt := parseBind_params_lt (hall (nullsBind (2 ^ 15) hn) (by
    rw [nullsBind_length]
    norm_num))
  have hlength : (nullsBind (2 ^ 15) hn).message.params.length = 2 ^ 15 := List.length_replicate
  omega

end MiddleWhere.Net

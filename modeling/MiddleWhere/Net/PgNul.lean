import MiddleWhere.Net.PgNumeric
import MiddleWhere.Net.Verbatim
import MiddleWhere.Sql.PgValue

/-!
# NUL bytes in rendered parameters

A NUL ends the text of a query on the wire. Binary payloads and arrays with one are refused or
read as integers; a scalar payload in the text format is quoted with all its bytes.
-/

namespace MiddleWhere.Net

def NoNul (s : String) : Prop := 0 ∉ Str.asBytes s

instance (s : String) : Decidable (NoNul s) := inferInstanceAs (Decidable (0 ∉ Str.asBytes s))

/-- A text payload that is quoted whatever bytes it has, a NUL among them. -/
def QuotedNul (oid fmt : ℤ) (b : Bytes) : Prop :=
  fmt ≠ 1 ∧ arrayElemOid oid = none ∧ oid ≠ oidBool ∧ 0 ∈ b

/-! ## Texts without NUL -/

theorem noNul_append {s t : String} : NoNul (s ++ t) ↔ NoNul s ∧ NoNul t := by
  simp [NoNul]

theorem noNul_lossy {b : Bytes} : NoNul (Str.fromUtf8Lossy b) ↔ 0 ∉ b :=
  not_congr (Str.ascii_mem_lossy (by decide))

theorem noNul_quoteLit {s : String} : NoNul (quoteLit s) ↔ NoNul s := by
  simp [NoNul, asBytes_quoteLit, Sql.Pg.mem_doubled]

theorem noNul_intercalate {sep : String} {parts : List String} (hsep : NoNul sep)
    (hparts : ∀ p ∈ parts, NoNul p) : NoNul (sep.intercalate parts) := by
  induction parts with
  | nil => exact List.not_mem_nil
  | cons p parts ih =>
    have hp : NoNul p := hparts p List.mem_cons_self
    have hrest := ih fun q hq => hparts q (List.mem_cons_of_mem p hq)
    cases parts with
    | nil => simpa using hp
    | cons q parts =>
      rw [String.intercalate_cons_cons]
      exact noNul_append.mpr ⟨noNul_append.mpr ⟨hp, hsep⟩, hrest⟩

theorem Decimal.noNul {t : Bytes} (h : Decimal t) : 0 ∉ t := by
  obtain ⟨digits, fraction, rfl, -, hdigits, hfraction⟩ := h
  have hzero : ¬ isDigit 0 = true := by decide
  intro hmem
  rcases List.mem_append.mp hmem with hmem | hmem
  · exact hzero (hdigits 0 hmem)
  · obtain rfl | ⟨ds, rfl, -, hds⟩ := hfraction
    · simp at hmem
    · rcases List.mem_cons.mp hmem with hpoint | hmem
      · exact absurd hpoint (by decide)
      · exact hzero (hds 0 hmem)

theorem SignedDecimal.noNul {s : String} (h : SignedDecimal (Str.asBytes s)) : NoNul s := by
  obtain h | ⟨n, hn, h⟩ := h
  · exact h.noNul
  · rw [NoNul, hn, List.mem_cons, not_or]
    exact ⟨by decide, h.noNul⟩

theorem elemTypeName_noNul (oid : ℤ) : NoNul (elemTypeName oid) := by
  have hnames : ∀ name ∈ castNames, NoNul name := by
    decide
  exact hnames _ (elemTypeName_mem oid)

/-! ## Rendering -/

variable {deps : SessionDeps} (hprints : PrintsDecimals deps) {oid fmt : ℤ} {b : Bytes}
  {s : String}

theorem intText_noNul {width : ℕ} (h : intText width b = .ok s) : NoNul s := by
  obtain ⟨bytes, -, hs⟩ := Outcome.bind_eq_ok_iff.mp h
  obtain rfl := Outcome.ok.inj hs
  exact (intText_decimal _).noNul

/-- Bytes of a type that is not known are quoted only without a NUL. -/
theorem renderUnknown_noNul (h : renderUnknown b = .ok s) : NoNul s := by
  unfold renderUnknown at h
  split_ifs at h with hnul
  · split at h
    · exact intText_noNul h
    · exact intText_noNul h
    · exact intText_noNul h
    · simp at h
  · obtain rfl := Outcome.ok.inj h
    rw [noNul_quoteLit, noNul_lossy]
    simpa using hnul

include hprints in
theorem fmtFloat_noNul (bits : UInt64) : NoNul (fmtFloat deps bits) := by
  dsimp only [fmtFloat]
  split_ifs with hfinite
  · exact (hprints bits hfinite).noNul
  · decide
  · decide
  · decide

include hprints in
theorem renderBinary_noNul (h : renderBinary deps oid b = .ok s) : NoNul s := by
  unfold renderBinary at h
  split_ifs at h with h1 h2 h3 h4 h5 h6 h7 h8
  · obtain rfl := Outcome.ok.inj h
    decide
  · obtain rfl := Outcome.ok.inj h
    decide
  · exact intText_noNul h
  · exact intText_noNul h
  · exact intText_noNul h
  · obtain ⟨bytes, -, hs⟩ := Outcome.bind_eq_ok_iff.mp h
    obtain rfl := Outcome.ok.inj hs
    exact fmtFloat_noNul hprints _
  · obtain ⟨bytes, -, hs⟩ := Outcome.bind_eq_ok_iff.mp h
    obtain rfl := Outcome.ok.inj hs
    exact fmtFloat_noNul hprints _
  · exact intText_noNul h
  · exact renderUnknown_noNul h

include hprints in
theorem renderElems_noNul {es : List (Option Bytes)} {parts : List String}
    (h : renderElems deps oid es = .ok parts) : ∀ p ∈ parts, NoNul p := by
  induction es generalizing parts with
  | nil =>
    obtain rfl := Outcome.ok.inj h
    exact List.forall_mem_nil _
  | cons e es ih =>
    obtain ⟨part, hpart, h⟩ := Outcome.bind_eq_ok_iff.mp h
    obtain ⟨more, hmore, h⟩ := Outcome.bind_eq_ok_iff.mp h
    obtain rfl := Outcome.ok.inj h
    refine List.forall_mem_cons.mpr ⟨?_, ih hmore⟩
    cases e with
    | none =>
      obtain rfl := Outcome.ok.inj hpart
      decide
    | some b => exact renderBinary_noNul hprints hpart

include hprints in
theorem renderArray_noNul {elem : ℤ} (h : renderArray deps elem fmt b = .ok s) : NoNul s := by
  unfold renderArray at h
  by_cases hfmt : fmt = 1
  · rw [if_pos hfmt] at h
    obtain ⟨⟨oid, elems⟩, -, h⟩ := Outcome.bind_eq_ok_iff.mp h
    dsimp only at h
    split_ifs at h
    · obtain rfl := Outcome.ok.inj h
      exact noNul_append.mpr
        ⟨noNul_append.mpr ⟨by decide, elemTypeName_noNul oid⟩, by decide⟩
    · obtain ⟨parts, hparts, h⟩ := Outcome.bind_eq_ok_iff.mp h
      obtain rfl := Outcome.ok.inj h
      have hall := noNul_intercalate (show NoNul "," by decide) (renderElems_noNul hprints hparts)
      exact noNul_append.mpr ⟨noNul_append.mpr ⟨by decide, hall⟩, by decide⟩
  · rw [if_neg hfmt] at h
    split_ifs at h with hnul
    obtain rfl := Outcome.ok.inj h
    have hquoted : NoNul (quoteLit (Str.fromUtf8Lossy b)) := by
      rw [noNul_quoteLit, noNul_lossy]
      simpa using hnul
    exact noNul_append.mpr ⟨noNul_append.mpr ⟨noNul_append.mpr ⟨hquoted, by decide⟩,
      elemTypeName_noNul elem⟩, by decide⟩

/-- Spliced in or quoted, a text keeps its NUL. -/
theorem noNul_renderText_iff (hbool : oid ≠ oidBool) : NoNul (renderText oid b) ↔ 0 ∉ b := by
  unfold renderText
  rw [if_neg hbool]
  split_ifs
  · exact noNul_lossy
  · rw [noNul_quoteLit, noNul_lossy]

include hprints in
/-- A rendered parameter has no NUL unless it is a scalar text with one. -/
theorem renderParam_noNul_iff {payload : Option Bytes}
    (h : renderParam deps oid fmt payload = .ok s) :
    NoNul s ↔ ∀ b, payload = some b → ¬ QuotedNul oid fmt b := by
  cases payload with
  | none =>
    obtain rfl := Outcome.ok.inj h
    exact iff_of_true (by decide) (by simp)
  | some b =>
    simp only [Option.some.injEq, forall_eq']
    rw [renderParam] at h
    cases helem : arrayElemOid oid with
    | some elem =>
      rw [helem] at h
      refine iff_of_true (renderArray_noNul hprints h) fun hquoted => ?_
      exact Option.some_ne_none elem (helem.symm.trans hquoted.2.1)
    | none =>
      rw [helem] at h
      dsimp only [renderScalar] at h
      by_cases hfmt : fmt = 1
      · rw [if_pos hfmt] at h
        exact iff_of_true (renderBinary_noNul hprints h) fun hquoted => hquoted.1 hfmt
      · rw [if_neg hfmt] at h
        obtain rfl := Outcome.ok.inj h
        by_cases hbool : oid = oidBool
        · refine iff_of_true ?_ fun hquoted => hquoted.2.2.1 hbool
          simp only [renderText, if_pos hbool]
          split_ifs <;> decide
        · rw [noNul_renderText_iff hbool, not_iff_not]
          exact ⟨fun hnul => ⟨hfmt, helem, hbool, hnul⟩, fun hquoted => hquoted.2.2.2⟩

/-! ## Statements -/

theorem scan_step {ε : Type} {sql : String} {rendered : List String} {i more : ℕ} {c : UInt8}
    {st st' : ScanState} {copied out : Bytes} (hc : (Str.asBytes sql)[i]? = some c)
    (hstep : (scanStep sql rendered i c st : Outcome ε _) = .ok (st', copied, more)) :
    (scan sql rendered st i out : Outcome ε _) =
      scan sql rendered st' (i + 1 + more) (out ++ copied) := by
  obtain ⟨hi, rfl⟩ := List.getElem?_eq_some_iff.mp hc
  rw [scan, dif_pos hi, hstep]

theorem Substituted.noNul {rendered : List String} {x y : Bytes} (h : Substituted rendered x y)
    (hrendered : ∀ s ∈ rendered, NoNul s) (hx : 0 ∉ x) : 0 ∉ y := by
  induction h with
  | nil => exact hx
  | copied b _ ih =>
    rw [List.mem_cons, not_or] at hx ⊢
    exact ⟨hx.1, ih hx.2⟩
  | replaced _ _ htext _ ih =>
    simp only [List.mem_cons, List.mem_append, not_or] at hx ⊢
    exact ⟨hrendered _ (List.mem_of_getElem? htext), ih hx.2.2⟩

/-- A NUL in the text of a query comes from the template or from a rendered parameter. -/
theorem inlineParams_noNul {ε : Type} {sql inlined : String} {rendered : List String}
    (h : (inlineParams sql rendered : Outcome ε String) = .ok inlined)
    (hrendered : ∀ s ∈ rendered, NoNul s) (hsql : NoNul sql) : NoNul inlined :=
  (inlineParams_substituted h).noNul hrendered hsql

include hprints in
theorem renderAll_noNul_iff {oids formats : List ℤ} {i : ℕ} {params : List (Option Bytes)}
    {rendered : List String} (h : renderAll deps oids formats i params = .ok rendered) :
    (∀ s ∈ rendered, NoNul s) ↔ ∀ k b, params[k]? = some (some b) →
      ¬ QuotedNul (oids[i + k]?.getD 0) (formats[i + k]?.getD 0) b := by
  induction params generalizing i rendered with
  | nil =>
    obtain rfl := Outcome.ok.inj h
    simp
  | cons payload params ih =>
    obtain ⟨literal, hliteral, h⟩ := Outcome.bind_eq_ok_iff.mp h
    obtain ⟨more, hmore, h⟩ := Outcome.bind_eq_ok_iff.mp h
    obtain rfl := Outcome.ok.inj h
    rw [List.forall_mem_cons, renderParam_noNul_iff hprints hliteral, ih hmore]
    constructor
    · rintro ⟨hfirst, hrest⟩ k b hk
      cases k with
      | zero => exact hfirst b (Option.some.inj hk)
      | succ k =>
        rw [show i + (k + 1) = i + 1 + k by omega]
        exact hrest k b hk
    · intro hall
      refine ⟨fun b hb => hall 0 b (congrArg some hb), fun k b hk => ?_⟩
      rw [show i + 1 + k = i + (k + 1) by omega]
      exact hall (k + 1) b hk

include hprints in
/-- The parameters of a Bind and every statement that they are inlined in are free of NUL
exactly when no scalar text among the parameters has one. -/
theorem bound_noNul_iff {oids formats : List ℤ} {params : List (Option Bytes)}
    {rendered : List String} (h : renderAll deps oids formats 0 params = .ok rendered) :
    ((∀ s ∈ rendered, NoNul s) ∧ ∀ sql inlined : String, NoNul sql →
        (inlineParams sql rendered : Outcome EngineError String) = .ok inlined →
          NoNul inlined) ↔
      ∀ (k : ℕ) (b : Bytes), params[k]? = some (some b) →
        ¬ QuotedNul (oids[k]?.getD 0) (formats[k]?.getD 0) b := by
  have hparams := renderAll_noNul_iff hprints h
  simp only [Nat.zero_add] at hparams
  rw [← hparams]
  constructor
  · exact fun hall => hall.1
  · exact fun hall => ⟨hall, fun sql inlined hsql hinlined =>
      inlineParams_noNul hinlined hall hsql⟩

/-- The float 1.5 in its binary format has a NUL, its literal has none. -/
theorem bound_noNul_float :
    ((∀ s ∈ ["1.5"], NoNul s) ∧ ∀ sql inlined : String, NoNul sql →
        (inlineParams sql ["1.5"] : Outcome EngineError String) = .ok inlined →
          NoNul inlined) ↔
      ∀ (k : ℕ) (b : Bytes),
        [some [(0x3F : UInt8), 0xF8, 0, 0, 0, 0, 0, 0]][k]? = some (some b) →
        ¬ QuotedNul ([oidFloat8][k]?.getD 0) ([(1 : ℤ)][k]?.getD 0) b := by
  have hrender : renderAll literalDeps [oidFloat8] [1] 0
      [some [0x3F, 0xF8, 0, 0, 0, 0, 0, 0]] = .ok ["1.5"] := by
    have hfloat : renderParam literalDeps ([oidFloat8][0]?.getD 0) ([(1 : ℤ)][0]?.getD 0)
        (some [0x3F, 0xF8, 0, 0, 0, 0, 0, 0]) = .ok "1.5" := renderParam_float
    rw [renderAll, hfloat]
    rfl
  exact bound_noNul_iff literalDeps_prints hrender

/-- The payload `a\x00b` of a text parameter is quoted with its NUL, and stands so in the query. -/
theorem not_bound_noNul :
    ¬ (∀ (oid fmt : ℤ) (payload : Option Bytes) (s : String),
        renderParam literalDeps oid fmt payload = .ok s → NoNul s) ∧
      ∃ inlined : String, NoNul "SELECT $1" ∧
        renderAll literalDeps [25] [0] 0 [some [0x61, 0, 0x62]] = .ok ["'a\x00b'"] ∧
        (inlineParams "SELECT $1" ["'a\x00b'"] : Outcome EngineError String) = .ok inlined ∧
        ¬ NoNul inlined := by
  have hrender : renderParam literalDeps 25 0 (some [0x61, 0, 0x62]) = .ok "'a\x00b'" := by
    rfl
  constructor
  · exact fun hall => absurd (hall 25 0 _ _ hrender) (by decide)
  · refine ⟨"SELECT 'a\x00b'", by decide, by rfl, ?_, by decide⟩
    have hbytes : Str.asBytes "SELECT $1" =
        [0x53, 0x45, 0x4C, 0x45, 0x43, 0x54, 0x20, 0x24, 0x31] := by decide
    have hplain (i : ℕ) (c : UInt8) (out : Bytes) (hc : (Str.asBytes "SELECT $1")[i]? = some c)
        (hspecial : c ∉ special) :
        (scan "SELECT $1" ["'a\x00b'"] .normal i out : Outcome EngineError Bytes) =
          scan "SELECT $1" ["'a\x00b'"] .normal (i + 1) (out ++ [c]) := by
      have hstep : (scanStep "SELECT $1" ["'a\x00b'"] i c .normal : Outcome EngineError _) =
          .ok (.normal, [c], 0) := normalStep_plain hspecial
      exact scan_step hc hstep
    have hindex (out : Bytes) :
        (scan "SELECT $1" ["'a\x00b'"] .normal 7 out : Outcome EngineError Bytes) =
          scan "SELECT $1" ["'a\x00b'"] .normal 9 (out ++ Str.asBytes "'a\x00b'") := by
      have hstep : (scanStep "SELECT $1" ["'a\x00b'"] 7 0x24 .normal : Outcome EngineError _) =
          .ok (.normal, Str.asBytes "'a\x00b'", 1) := by rfl
      exact scan_step (by rw [hbytes]; rfl) hstep
    unfold inlineParams
    rw [hplain 0 0x53 _ (by rw [hbytes]; rfl) (by decide),
      hplain 1 0x45 _ (by rw [hbytes]; rfl) (by decide),
      hplain 2 0x4C _ (by rw [hbytes]; rfl) (by decide),
      hplain 3 0x45 _ (by rw [hbytes]; rfl) (by decide),
      hplain 4 0x43 _ (by rw [hbytes]; rfl) (by decide),
      hplain 5 0x54 _ (by rw [hbytes]; rfl) (by decide),
      hplain 6 0x20 _ (by rw [hbytes]; rfl) (by decide), hindex, scan,
      dif_neg (by rw [hbytes]; decide)]
    rfl

end MiddleWhere.Net

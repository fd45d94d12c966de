import MiddleWhere.Ctl.Uninstall
import MiddleWhere.Effects.Reach

/-!
# The key goes last

The removal walks the directory in the order of its listing and stops at the first entry that
cannot be removed, so what is left is the listing without a part of its front. The key outlives
the data exactly when the listing has it after the data, and when a directory that cannot be
looked into is not taken for an empty one.
-/

namespace MiddleWhere.Ctl
open Prog Store

variable {elevated : UninstallOpts → Machine → Machine → Prop} {host : Host}
  {opts : UninstallOpts} {m m' m'' : Machine} {dir : String} {gone gone' : List String}

/-! ## What a removal leaves -/

@[simp] theorem names_without (path : Path) : (m.without path).names dir =
    if dir = path.dir then (m.names dir).filter (· ≠ path.name) else m.names dir := by
  have hdirs : (m.without path).dirs dir =
      Function.update m.dirs path.dir ((m.dirs path.dir).map (·.without path.name)) dir := rfl
  rw [Machine.names, hdirs]
  split_ifs with hdir
  · subst hdir
    rw [Function.update_self, Machine.names]
    cases m.dirs path.dir with
    | none => rfl
    | some listing => rfl
  · rw [Function.update_of_ne hdir, Machine.names]

@[simp] theorem names_withoutCredential (service account : String) :
    (m.withoutCredential service account).names dir = m.names dir := rfl

theorem names_withoutDir (hempty : m.names dir = []) (d : String) :
    (m.withoutDir dir).names d = m.names d := by
  have hdirs : (m.withoutDir dir).dirs d = Function.update m.dirs dir none d := rfl
  rw [Machine.names, hdirs]
  obtain rfl | hd := eq_or_ne d dir
  · rw [Function.update_self, hempty]
    rfl
  · rw [Function.update_of_ne hd, Machine.names]

theorem names_nodup (m : Machine) (dir : String) : (m.names dir).Nodup := by
  unfold Machine.names
  cases m.dirs dir with
  | none => exact List.nodup_nil
  | some listing => exact listing.nodup

/-- Of the directory the names of `gone` are gone, the audit log perhaps not. -/
structure Cleared (dir : String) (gone : List String) (m m' : Machine) : Prop where
  hidden : m'.hidden = m.hidden
  credentials : m'.credentials = m.credentials
  elsewhere : ∀ d, d ≠ dir → m'.names d = m.names d
  stays : ∀ x ∈ m.names dir, x ∉ gone → x ∈ m'.names dir
  left : ∀ x ∈ m'.names dir, x ∈ m.names dir ∧ (x ∈ gone → x = "audit")

theorem Cleared.refl (dir : String) (m : Machine) : Cleared dir [] m m where
  hidden := rfl
  credentials := rfl
  elsewhere _ _ := rfl
  stays _ hx _ := hx
  left _ hx := ⟨hx, fun h => nomatch h⟩

theorem Cleared.audit (dir : String) (m : Machine) : Cleared dir ["audit"] m m where
  hidden := rfl
  credentials := rfl
  elsewhere _ _ := rfl
  stays _ hx _ := hx
  left _ hx := ⟨hx, List.mem_singleton.mp⟩

theorem Cleared.append (h : Cleared dir gone m m') (h' : Cleared dir gone' m' m'') :
    Cleared dir (gone ++ gone') m m'' where
  hidden := h'.hidden.trans h.hidden
  credentials := h'.credentials.trans h.credentials
  elsewhere d hd := (h'.elsewhere d hd).trans (h.elsewhere d hd)
  stays x hx hnot := by
    rw [List.mem_append, not_or] at hnot
    exact h'.stays x (h.stays x hx hnot.1) hnot.2
  left x hx := by
    obtain ⟨hmid, hgone'⟩ := h'.left x hx
    obtain ⟨hfirst, hgone⟩ := h.left x hmid
    exact ⟨hfirst, fun hmem => (List.mem_append.mp hmem).elim hgone hgone'⟩

theorem cleared_without (name : String) : Cleared dir [name] m (m.without ⟨dir, name⟩) where
  hidden := rfl
  credentials := rfl
  elsewhere d hd := by rw [names_without, if_neg hd]
  stays x hx hnot := by
    rw [names_without, if_pos rfl, List.mem_filter]
    exact ⟨hx, by simpa using hnot⟩
  left x hx := by
    rw [names_without, if_pos rfl, List.mem_filter] at hx
    obtain ⟨hmem, hne⟩ := hx
    exact ⟨hmem, fun hgone => absurd (List.mem_singleton.mp hgone) (by simpa using hne)⟩

theorem cleared_withoutDir (hempty : m.names dir = []) : Cleared dir [] m (m.withoutDir dir) where
  hidden := rfl
  credentials := rfl
  elsewhere d _ := names_withoutDir hempty d
  stays x hx _ := by rwa [names_withoutDir hempty]
  left x hx := by
    rw [names_withoutDir hempty] at hx
    exact ⟨hx, fun h => nomatch h⟩

/-! ## One entry -/

section
variable {α : Type} {M : Sem ctlSig Machine} {o : CtlOp}

theorem ends_ask {r : o.Res} : Ends M (ask o) m r m' ↔ M m o r m' := ends_perform

theorem reaches_ask : Reaches M (ask o) m m' ↔ m' = m ∨ ∃ r : o.Res, M m o r m' :=
  reaches_perform

/-- A call whose answer is returned with `?`. -/
theorem ends_askOr {f : o.Res → Except String α} {a : α} :
    Ends M ((ask o).bind fun r => ofExcept (f r)) m a m' ↔ ∃ r, f r = .ok a ∧ M m o r m' := by
  simp only [ends_bind, ends_ask, ends_ofExcept]
  constructor
  · rintro ⟨r, m₁, hM, hok, rfl⟩
    exact ⟨r, hok, hM⟩
  · rintro ⟨r, hok, hM⟩
    exact ⟨r, m', hM, hok, rfl⟩

theorem reaches_askOr {f : o.Res → Except String α} :
    Reaches M ((ask o).bind fun r => ofExcept (f r)) m m' ↔ m' = m ∨ ∃ r : o.Res, M m o r m' := by
  simp only [reaches_bind, reaches_ask, ends_ask, reaches_ofExcept]
  constructor
  · rintro ((rfl | hM) | ⟨r, m₁, hM, rfl⟩)
    · exact Or.inl rfl
    · exact Or.inr hM
    · exact Or.inr ⟨r, hM⟩
  · exact Or.inl

end

/-- What `remove` does to one entry of the directory. It can succeed where the entry is there. -/
structure Removes (elevated : UninstallOpts → Machine → Machine → Prop) (dir : String)
    (remove : String → CtlProg Unit) : Prop where
  cut : ∀ {name m m'}, Reaches (ctlSem elevated) (remove name) m m' →
    m' = m ∨ Cleared dir [name] m m'
  done : ∀ {name m m'}, Ends (ctlSem elevated) (remove name) m () m' → Cleared dir [name] m m'
  can : ∀ {name m}, m.hidden dir = false → name ∈ m.names dir →
    ∃ m', Ends (ctlSem elevated) (remove name) m () m'

theorem reaches_removeEntry {path : Path}
    (h : Reaches (ctlSem elevated) (removeEntry path) m m') : m' = m ∨ m' = m.without path := by
  obtain hask | ⟨tree, m₁, hask, hrest⟩ := reaches_bind.mp h
  · obtain rfl | ⟨tree, hM⟩ := reaches_ask.mp hask
    · exact Or.inl rfl
    · exact Or.inl hM.1
  · obtain ⟨rfl, -⟩ := ends_ask.mp hask
    cases tree with
    | true =>
      obtain rfl | ⟨r, hM⟩ := reaches_askOr.mp hrest
      · exact Or.inl rfl
      · cases r with
        | ok u => exact Or.inr hM.2
        | error e => exact Or.inl hM
    | false =>
      obtain rfl | ⟨r, hM⟩ := reaches_askOr.mp hrest
      · exact Or.inl rfl
      · cases r with
        | ok u => exact Or.inr hM.2.2
        | error e => exact Or.inl hM.1

theorem ends_removeEntry {path : Path} :
    Ends (ctlSem elevated) (removeEntry path) m () m' ↔ m.found path = true ∧ m' = m.without path := by
  constructor
  · intro h
    obtain ⟨tree, m₁, hask, hrest⟩ := ends_bind.mp h
    obtain ⟨rfl, -⟩ := ends_ask.mp hask
    cases tree with
    | true =>
      obtain ⟨r, hr, hM⟩ := ends_askOr.mp hrest
      rw [mapError_eq_ok_iff.mp hr] at hM
      exact hM
    | false =>
      obtain ⟨r, hr, hM⟩ := ends_askOr.mp hrest
      rw [mapError_eq_ok_iff.mp hr] at hM
      exact ⟨hM.1, hM.2.2⟩
  · rintro ⟨hfound, rfl⟩
    refine ends_bind.mpr ⟨m.isDirectory path, m, ends_ask.mpr ⟨rfl, rfl⟩, ?_⟩
    cases hdir : m.isDirectory path with
    | true => exact ends_askOr.mpr ⟨.ok (), rfl, hfound, rfl⟩
    | false => exact ends_askOr.mpr ⟨.ok (), rfl, hfound, hdir, rfl⟩

theorem removes_entry (dir : String) : Removes elevated dir fun name => removeEntry ⟨dir, name⟩ where
  cut h := by
    obtain rfl | rfl := reaches_removeEntry h
    · exact Or.inl rfl
    · exact Or.inr (cleared_without _)
  done h := by
    obtain ⟨-, rfl⟩ := ends_removeEntry.mp h
    exact cleared_without _
  can hhidden hmem := ⟨_, ends_removeEntry.mpr ⟨by simp [Machine.found, hhidden, hmem], rfl⟩⟩

theorem removes_unlessAudit (dir : String) : Removes elevated dir (removeUnlessAudit dir) where
  cut {name m m'} h := by
    unfold removeUnlessAudit at h
    split_ifs at h with haudit
    · exact Or.inl (reaches_halt.mp h)
    · exact (removes_entry dir).cut (reaches_mapErr.mp h)
  done {name m m'} h := by
    unfold removeUnlessAudit at h
    split_ifs at h with haudit
    · obtain ⟨-, rfl⟩ := ends_halt_ok.mp h
      exact haudit ▸ Cleared.audit dir m'
    · exact (removes_entry dir).done (ends_mapErr.mp h)
  can {name m} hhidden hmem := by
    unfold removeUnlessAudit
    split_ifs with haudit
    · exact ⟨m, ends_halt_ok.mpr ⟨rfl, rfl⟩⟩
    · obtain ⟨m', hm'⟩ := (removes_entry dir).can hhidden hmem
      exact ⟨m', ends_mapErr.mpr hm'⟩

/-! ## A listing -/

section
variable {remove : String → CtlProg Unit} (hremove : Removes elevated dir remove)
include hremove

theorem reaches_forEntries {names : List String}
    (h : Reaches (ctlSem elevated) (forEntries remove names) m m') :
    ∃ gone, gone <+: names ∧ Cleared dir gone m m' := by
  induction names generalizing m with
  | nil =>
    obtain rfl := reaches_halt.mp h
    exact ⟨[], List.nil_prefix, .refl dir m'⟩
  | cons name rest ih =>
    obtain hcut | ⟨u, m₁, hdone, hrest⟩ := reaches_bind.mp h
    · obtain rfl | hclear := hremove.cut hcut
      · exact ⟨[], List.nil_prefix, .refl dir m'⟩
      · exact ⟨[name], ⟨rest, rfl⟩, hclear⟩
    · obtain ⟨gone, hprefix, hclear⟩ := ih hrest
      exact ⟨name :: gone, List.cons_prefix_cons.mpr ⟨rfl, hprefix⟩, (hremove.done hdone).append hclear⟩

theorem ends_forEntries {names : List String}
    (h : Ends (ctlSem elevated) (forEntries remove names) m () m') : Cleared dir names m m' := by
  induction names generalizing m with
  | nil =>
    obtain ⟨-, rfl⟩ := ends_halt_ok.mp h
    exact .refl dir m'
  | cons name rest ih =>
    obtain ⟨u, m₁, hdone, hrest⟩ := ends_bind.mp h
    exact (hremove.done hdone).append (ih hrest)

theorem forEntries_can {names : List String} (hhidden : m.hidden dir = false)
    (hnodup : names.Nodup) (hmem : ∀ x ∈ names, x ∈ m.names dir) :
    ∃ m', Ends (ctlSem elevated) (forEntries remove names) m () m' := by
  induction names generalizing m with
  | nil => exact ⟨m, ends_halt_ok.mpr ⟨rfl, rfl⟩⟩
  | cons name rest ih =>
    obtain ⟨m₁, hfirst⟩ := hremove.can hhidden (hmem name List.mem_cons_self)
    have hclear := hremove.done hfirst
    have hrest : ∀ x ∈ rest, x ∈ m₁.names dir := by
      intro x hx
      refine hclear.stays x (hmem x (List.mem_cons_of_mem name hx)) ?_
      rw [List.mem_singleton]
      rintro rfl
      exact hnodup.notMem hx
    obtain ⟨m', hm'⟩ := ih (by rw [hclear.hidden, hhidden]) hnodup.of_cons hrest
    exact ⟨m', ends_bind.mpr ⟨(), m₁, hfirst, hm'⟩⟩

theorem reaches_forListing {listing : List String × Option IoError}
    (h : Reaches (ctlSem elevated) (forListing remove listing) m m') :
    ∃ gone, gone <+: listing.1 ∧ Cleared dir gone m m' := by
  obtain hcut | ⟨u, m₁, hdone, hrest⟩ := reaches_bind.mp h
  · exact reaches_forEntries hremove hcut
  · obtain rfl := reaches_ofExcept.mp hrest
    exact ⟨listing.1, List.prefix_rfl, ends_forEntries hremove hdone⟩

theorem ends_forListing {listing : List String × Option IoError}
    (h : Ends (ctlSem elevated) (forListing remove listing) m () m') :
    listing.2 = none ∧ Cleared dir listing.1 m m' := by
  obtain ⟨u, m₁, hdone, hrest⟩ := ends_bind.mp h
  obtain ⟨hok, rfl⟩ := ends_ofExcept.mp hrest
  refine ⟨?_, ends_forEntries hremove hdone⟩
  cases hbroken : listing.2 with
  | none => rfl
  | some e => simp [hbroken, Except.mapError] at hok

end

/-! ## The state directory -/

/-- Only a part of the front of the listing is gone, and where the directory cannot be looked into
nothing is. -/
def Cut (dir : String) (m m' : Machine) : Prop :=
  (m.hidden dir = true → m' = m) ∧ ∃ gone, gone <+: m.names dir ∧ Cleared dir gone m m'

theorem Cut.refl (dir : String) (m : Machine) : Cut dir m m :=
  ⟨fun _ => rfl, [], List.nil_prefix, .refl dir m⟩

section
variable {remove : String → CtlProg Unit} (hremove : Removes elevated dir remove)
include hremove

/-- Reading the listing and clearing it. -/
theorem reaches_walk (h : Reaches (ctlSem elevated)
    (((ask (.readDir dir)).bind orIo).bind (forListing remove)) m m') : Cut dir m m' := by
  have hstay {r m₁} (hM : ctlSem elevated m (.readDir dir) r m₁) : m₁ = m := by
    cases r with
    | ok listing => exact hM.1
    | error e => exact hM
  rw [bind_assoc] at h
  obtain hask | ⟨r, m₁, hask, hrest⟩ := reaches_bind.mp h
  · obtain rfl | ⟨r, hM⟩ := reaches_ask.mp hask
    · exact .refl dir m'
    · rw [hstay hM]
      exact .refl dir m
  · have hM := ends_ask.mp hask
    obtain rfl := hstay hM
    obtain hfail | ⟨listing, m₂, hread, hwalk⟩ := reaches_bind.mp hrest
    · obtain rfl := reaches_ofExcept.mp hfail
      exact .refl dir m'
    · obtain ⟨hr, rfl⟩ := ends_ofExcept.mp hread
      rw [mapError_eq_ok_iff.mp hr] at hM
      obtain ⟨-, hhidden, hprefix, -⟩ := hM
      obtain ⟨gone, hgone, hclear⟩ := reaches_forListing hremove hwalk
      exact ⟨fun h => absurd hhidden (by simp [h]), gone, hgone.trans hprefix, hclear⟩

theorem ends_walk (h : Ends (ctlSem elevated)
    (((ask (.readDir dir)).bind orIo).bind (forListing remove)) m () m') :
    m.hidden dir = false ∧ Cleared dir (m.names dir) m m' := by
  rw [bind_assoc] at h
  obtain ⟨r, m₁, hask, hrest⟩ := ends_bind.mp h
  obtain ⟨listing, m₂, hread, hwalk⟩ := ends_bind.mp hrest
  obtain ⟨hr, rfl⟩ := ends_ofExcept.mp hread
  have hM := ends_ask.mp hask
  rw [mapError_eq_ok_iff.mp hr] at hM
  obtain ⟨rfl, hhidden, -, hwhole⟩ := hM
  obtain ⟨hnone, hclear⟩ := ends_forListing hremove hwalk
  exact ⟨hhidden, hwhole hnone ▸ hclear⟩

/-- The walk can get as far as any name of the listing. -/
theorem walk_can {pre post : List String} (hhidden : m.hidden dir = false)
    (hnames : m.names dir = pre ++ post) : ∃ m', Cleared dir pre m m' ∧ Reaches (ctlSem elevated)
      (((ask (.readDir dir)).bind orIo).bind (forListing remove)) m m' := by
  have happend (names : List String) : forEntries remove (names ++ post) =
      (forEntries remove names).bind fun _ => forEntries remove post := by
    induction names with
    | nil => rfl
    | cons name rest ih => simp only [List.cons_append, forEntries, bind_eq, ih, bind_assoc]
  have hnodup : pre.Nodup := (List.nodup_append.mp (hnames ▸ names_nodup m dir)).1
  obtain ⟨m', hm'⟩ := forEntries_can hremove hhidden hnodup fun x hx => by
    rw [hnames]
    exact List.mem_append_left post hx
  refine ⟨m', ends_forEntries hremove hm', ?_⟩
  rw [bind_assoc]
  refine reaches_bind.mpr (Or.inr ⟨.ok (m.names dir, none), m, ends_ask.mpr ?_, ?_⟩)
  · exact ⟨rfl, hhidden, List.prefix_rfl, fun _ => rfl⟩
  refine reaches_bind.mpr (Or.inr ⟨(m.names dir, none), m, ends_ofExcept.mpr ⟨rfl, rfl⟩, ?_⟩)
  refine reaches_bind.mpr (Or.inl ?_)
  rw [hnames, happend]
  exact reaches_bind.mpr (Or.inr ⟨(), m', hm', reaches_here _ _⟩)

end

theorem removeDirAll_eq (dir : String) : removeDirAll dir =
    (((ask (.readDir dir)).bind orIo).bind (forListing fun name => removeEntry ⟨dir, name⟩)).bind
      fun _ => (ask (.removeDir dir)).bind orIo := by
  simp only [removeDirAll, bind_eq, bind_assoc]

theorem reaches_removeDirAll (h : Reaches (ctlSem elevated) (removeDirAll dir) m m') :
    Cut dir m m' := by
  rw [removeDirAll_eq] at h
  obtain hwalk | ⟨u, m₁, hwalk, hremove⟩ := reaches_bind.mp h
  · exact reaches_walk (removes_entry dir) hwalk
  · obtain ⟨hhidden, hclear⟩ := ends_walk (removes_entry dir) hwalk
    refine ⟨fun h => absurd hhidden (by simp [h]), m.names dir, List.prefix_rfl, ?_⟩
    obtain rfl | ⟨r, hM⟩ := reaches_askOr.mp hremove
    · exact hclear
    · cases r with
      | ok u =>
        obtain ⟨-, hempty, rfl⟩ := hM
        have hlast := hclear.append (cleared_withoutDir hempty)
        rwa [List.append_nil] at hlast
      | error e =>
        obtain rfl : m' = m₁ := hM
        exact hclear

theorem ends_removeDirAll (h : Ends (ctlSem elevated) (removeDirAll dir) m () m') :
    m.hidden dir = false ∧ Cleared dir (m.names dir) m m' := by
  rw [removeDirAll_eq] at h
  obtain ⟨u, m₁, hwalk, hremove⟩ := ends_bind.mp h
  obtain ⟨hhidden, hclear⟩ := ends_walk (removes_entry dir) hwalk
  obtain ⟨r, hr, hM⟩ := ends_askOr.mp hremove
  rw [mapError_eq_ok_iff.mp hr] at hM
  obtain ⟨-, hempty, rfl⟩ := hM
  have hlast := hclear.append (cleared_withoutDir hempty)
  rw [List.append_nil] at hlast
  exact ⟨hhidden, hlast⟩

theorem reaches_mapErr_bind {α β : Type} {f : String → String} {p : CtlProg α} {g : α → CtlProg β} :
    Reaches (ctlSem elevated) ((p.mapErr f).bind g) m m' ↔ Reaches (ctlSem elevated) (p.bind g) m m' := by
  simp only [reaches_bind, reaches_mapErr, ends_mapErr]

/-- What is left when the state directory has been removed. -/
def Emptied (dir : String) (m m' : Machine) : Prop :=
  (m.hidden dir = true ∧ m' = m) ∨ Cleared dir (m.names dir) m m'

theorem reaches_keepsAudit {purgeAudit : Bool}
    (h : Reaches (ctlSem elevated) (keepsAudit dir purgeAudit) m m') : m' = m := by
  cases purgeAudit with
  | true => exact reaches_halt.mp h
  | false =>
    obtain rfl | ⟨r, hM⟩ := reaches_ask.mp h
    · rfl
    · exact hM.1

/-- The directory is there: its entries are removed, with the audit log or without it. -/
def clearDir (dir : String) (keepAudit : Bool) : CtlProg Removal :=
  if keepAudit then
    (withContext ("read " ++ dir) ((ask (.readDir dir)).bind orIo)).bind fun listing =>
      (forListing (removeUnlessAudit dir) listing).bind fun _ => pure .preservedAudit
  else (withContext ("remove " ++ dir) (removeDirAll dir)).bind fun _ => pure .full

theorem removeStateDir_eq (dir : String) (purgeAudit : Bool) : removeStateDir dir purgeAudit =
    (ask (.probeDir dir)).bind fun there =>
      if there then
        (keepsAudit dir purgeAudit).bind (clearDir dir)
      else pure .absent := rfl

theorem reaches_clearDir {keepAudit : Bool}
    (h : Reaches (ctlSem elevated) (clearDir dir keepAudit) m m') : Cut dir m m' := by
  cases keepAudit with
  | true =>
    have hwalk : Reaches (ctlSem elevated)
        (((ask (.readDir dir)).bind orIo).bind (forListing (removeUnlessAudit dir))) m m' := by
      rw [clearDir, if_pos rfl, withContext, ← bind_assoc] at h
      obtain h | ⟨u, m₁, h, hlast⟩ := reaches_bind.mp h
      · exact reaches_mapErr_bind.mp h
      · obtain rfl := reaches_halt.mp hlast
        exact reaches_mapErr_bind.mp h.reaches
    exact reaches_walk (removes_unlessAudit dir) hwalk
  | false =>
    obtain h | ⟨u, m₁, h, hlast⟩ := reaches_bind.mp h
    · exact reaches_removeDirAll (reaches_mapErr.mp h)
    · obtain rfl := reaches_halt.mp hlast
      exact reaches_removeDirAll (reaches_mapErr.mp h.reaches)

theorem ends_clearDir {keepAudit : Bool} {removal : Removal}
    (h : Ends (ctlSem elevated) (clearDir dir keepAudit) m removal m') :
    Cleared dir (m.names dir) m m' := by
  cases keepAudit with
  | true =>
    rw [clearDir, if_pos rfl, withContext, ← bind_assoc] at h
    obtain ⟨u, m₁, hwalk, hlast⟩ := ends_bind.mp h
    obtain ⟨-, rfl⟩ := ends_halt_ok.mp hlast
    obtain ⟨listing, m₂, hread, hfor⟩ := ends_bind.mp hwalk
    exact (ends_walk (removes_unlessAudit dir)
      (ends_bind.mpr ⟨listing, m₂, ends_mapErr.mp hread, hfor⟩)).2
  | false =>
    obtain ⟨u, m₁, hall, hlast⟩ := ends_bind.mp h
    obtain ⟨-, rfl⟩ := ends_halt_ok.mp hlast
    exact (ends_removeDirAll (ends_mapErr.mp hall)).2

theorem reaches_removeStateDir {purgeAudit : Bool}
    (h : Reaches (ctlSem elevated) (removeStateDir dir purgeAudit) m m') : Cut dir m m' := by
  rw [removeStateDir_eq] at h
  obtain hask | ⟨there, m₁, hask, hrest⟩ := reaches_bind.mp h
  · obtain rfl | ⟨r, hM⟩ := reaches_ask.mp hask
    · exact .refl dir m'
    · rw [hM.1]
      exact .refl dir m
  · obtain ⟨rfl, -⟩ := ends_ask.mp hask
    cases there with
    | false =>
      obtain rfl := reaches_halt.mp hrest
      exact .refl dir m'
    | true =>
      obtain hprobe | ⟨keepAudit, m₂, hprobe, hclear⟩ := reaches_bind.mp hrest
      · obtain rfl := reaches_keepsAudit hprobe
        exact .refl dir m'
      · obtain rfl := reaches_keepsAudit hprobe.reaches
        exact reaches_clearDir hclear

theorem ends_removeStateDir {purgeAudit : Bool} {removal : Removal}
    (h : Ends (ctlSem elevated) (removeStateDir dir purgeAudit) m removal m') : Emptied dir m m' := by
  rw [removeStateDir_eq] at h
  obtain ⟨there, m₁, hask, hrest⟩ := ends_bind.mp h
  obtain ⟨rfl, hthere⟩ := ends_ask.mp hask
  cases there with
  | false =>
    obtain ⟨-, rfl⟩ := ends_halt_ok.mp hrest
    cases hhidden : m'.hidden dir with
    | true => exact Or.inl ⟨hhidden, rfl⟩
    | false =>
      have hnone : m'.dirs dir = none := by simpa [hhidden] using hthere.symm
      have hempty : m'.names dir = [] := by rw [Machine.names, hnone, Option.elim_none]
      exact Or.inr (hempty ▸ Cleared.refl dir m')
  | true =>
    obtain ⟨keepAudit, m₂, hprobe, hclear⟩ := ends_bind.mp hrest
    obtain rfl := reaches_keepsAudit hprobe.reaches
    exact Or.inr (ends_clearDir hclear)

/-- Without the audit log's name in the way, any name of the listing can be the last removed. -/
theorem removeStateDir_can {purgeAudit : Bool} {pre post : List String}
    (hhidden : m.hidden dir = false) (hthere : (m.dirs dir).isSome = true)
    (hnames : m.names dir = pre ++ post) :
    ∃ m', Cleared dir pre m m' ∧ Reaches (ctlSem elevated) (removeStateDir dir purgeAudit) m m' := by
  have hclear (keepAudit : Bool) :
      ∃ m', Cleared dir pre m m' ∧ Reaches (ctlSem elevated) (clearDir dir keepAudit) m m' := by
    cases keepAudit with
    | true =>
      obtain ⟨m', hclear, hreach⟩ := walk_can (removes_unlessAudit dir) hhidden hnames
      refine ⟨m', hclear, ?_⟩
      rw [clearDir, if_pos rfl, withContext, ← bind_assoc]
      exact reaches_bind.mpr (Or.inl (reaches_mapErr_bind.mpr hreach))
    | false =>
      obtain ⟨m', hclear, hreach⟩ := walk_can (removes_entry dir) hhidden hnames
      refine ⟨m', hclear, reaches_bind.mpr (Or.inl (reaches_mapErr.mpr ?_))⟩
      rw [removeDirAll_eq]
      exact reaches_bind.mpr (Or.inl hreach)
  have hprobe : ∃ keepAudit, Ends (ctlSem elevated) (keepsAudit dir purgeAudit) m keepAudit m := by
    cases purgeAudit with
    | true => exact ⟨false, ends_halt_ok.mpr ⟨rfl, rfl⟩⟩
    | false => exact ⟨_, ends_ask.mpr ⟨rfl, rfl⟩⟩
  obtain ⟨keepAudit, hkeep⟩ := hprobe
  obtain ⟨m', hleft, hreach⟩ := hclear keepAudit
  refine ⟨m', hleft, ?_⟩
  rw [removeStateDir_eq]
  refine reaches_bind.mpr (Or.inr ⟨true, m, ends_ask.mpr ⟨rfl, by simp [hhidden, hthere]⟩, ?_⟩)
  exact reaches_bind.mpr (Or.inr ⟨keepAudit, m, hkeep, hreach⟩)

/-! ## The key -/

/-- What deleting the key leaves. -/
def Deleted (m : Machine) : KeystoreChoice → Machine → Prop
  | .os service account, m' => m' = m.withoutCredential service account
  | .file path, m' => m.found path = true ∧ m' = m.without path

theorem reaches_delete {ks : KeystoreChoice} (h : Reaches (ctlSem elevated) (delete ks) m m') :
    m' = m ∨ Deleted m ks m' := by
  have hkey (h : Reaches (ctlSem elevated) (deleteKey ks) m m') : m' = m ∨ Deleted m ks m' := by
    cases ks with
    | os service account =>
      obtain rfl | ⟨r, hM⟩ := reaches_ask.mp h
      · exact Or.inl rfl
      · cases r with
        | ok u => exact Or.inr hM.2
        | error e => exact Or.inl hM
    | file path =>
      have hM {r m₁} (hM : ctlSem elevated m (.removeFile path) r m₁) :
          m₁ = m ∨ Deleted m (.file path) m₁ := by
        cases r with
        | ok u => exact Or.inr ⟨hM.1, hM.2.2⟩
        | error e => exact Or.inl hM.1
      obtain hask | ⟨r, m₁, hask, hrest⟩ := reaches_bind.mp h
      · obtain rfl | ⟨r, hr⟩ := reaches_ask.mp hask
        · exact Or.inl rfl
        · exact hM hr
      · have hsame : m' = m₁ := by
          split at hrest
          · exact reaches_halt.mp hrest
          · exact reaches_halt.mp hrest
          · exact reaches_halt.mp hrest
        rw [hsame]
        exact hM (ends_ask.mp hask)
  obtain h | ⟨r, m₁, h, hrest⟩ := reaches_bind.mp h
  · exact hkey h
  · have hsame : m' = m₁ := by
      split at hrest
      · exact reaches_halt.mp hrest
      · exact reaches_halt.mp hrest
      · exact reaches_halt.mp hrest
    rw [hsame] at hkey ⊢
    exact hkey h.reaches

theorem names_of_deleted {ks : KeystoreChoice} (h : Deleted m ks m') {x : String}
    (hx : x ∈ m'.names dir) : x ∈ m.names dir := by
  cases ks with
  | os service account => rwa [show m' = _ from h] at hx
  | file path =>
    obtain ⟨-, rfl⟩ := h
    rw [names_without] at hx
    split_ifs at hx with hdir
    · exact (List.mem_filter.mp hx).1
    · exact hx

/-- Only the key store that is deleted loses its key. -/
theorem keyLeft_of_deleted {ks kept : KeystoreChoice} (h : Deleted m ks m') (hne : kept ≠ ks)
    (hkey : KeyLeft m kept) : KeyLeft m' kept := by
  cases ks with
  | os service account =>
    obtain rfl : m' = _ := h
    cases kept with
    | file path => exact hkey
    | os service' account' =>
      have hpair : (service', account') ≠ (service, account) := by
        rintro ⟨⟩
        exact hne rfl
      exact (Function.update_of_ne hpair _ _).trans hkey
  | file path =>
    obtain ⟨-, rfl⟩ := h
    cases kept with
    | os service account => exact hkey
    | file path' =>
      simp only [KeyLeft, names_without]
      split_ifs with hdir
      · refine List.mem_filter.mpr ⟨hkey, decide_eq_true ?_⟩
        intro hname
        obtain ⟨dir, name⟩ := path
        obtain ⟨dir', name'⟩ := path'
        obtain rfl : dir' = dir := hdir
        obtain rfl : name' = name := hname
        exact hne rfl
      · exact hkey

theorem not_audit_of_data {name : String} (h : name ∈ dataNames) : name ≠ "audit" := by
  rintro rfl
  revert h
  decide

/-- A cut of the removal that keeps the data has kept a key that is listed after it. -/
theorem keyLeft_of_cut {kept : KeystoreChoice} (hkept : kept.Resolved)
    (hsafe : kept = .defaultFile dir → m.hidden dir = true ∨ ¬ KeyListedFirst (m.names dir))
    (hkey : KeyLeft m kept) (hcut : Cut dir m m') (hdata : DataLeft m' dir) : KeyLeft m' kept := by
  obtain ⟨hhidden, gone, hprefix, hclear⟩ := hcut
  cases kept with
  | os service account => exact (congrFun hclear.credentials _).trans hkey
  | file path =>
    obtain ⟨d, name⟩ := path
    obtain rfl : name = "master.key" := hkept
    obtain rfl | hd := eq_or_ne d dir
    · obtain hh | hlisted := hsafe rfl
      · rwa [hhidden hh]
      · by_cases hgone : "master.key" ∈ gone
        · -- the key is in the part that is gone, the data is not
          exfalso
          obtain ⟨data, hname, hleft⟩ := hdata
          obtain ⟨hmem, haudit⟩ := hclear.left data hleft
          have hnot : data ∉ gone := fun h => not_audit_of_data hname (haudit h)
          obtain ⟨rest, hnames⟩ := hprefix
          refine hlisted ⟨data, hname, ?_⟩
          rw [← hnames] at hmem ⊢
          have hrest : data ∈ rest := (List.mem_append.mp hmem).resolve_left hnot
          have hne : gone.dropWhile (· ≠ "master.key") ≠ [] := by
            rw [Ne, List.dropWhile_eq_nil_iff]
            exact fun h => by simpa using h _ hgone
          rw [List.dropWhile_append, if_neg (by simpa [List.isEmpty_iff] using hne)]
          exact List.mem_append_right _ hrest
        · exact hclear.stays _ hkey hgone
    · have hsame : "master.key" ∈ m'.names d := by rwa [hclear.elsewhere d hd]
      exact hsame

theorem not_dataLeft_of_cleared (h : Cleared dir (m.names dir) m m') : ¬ DataLeft m' dir := by
  rintro ⟨data, hname, hleft⟩
  obtain ⟨hmem, haudit⟩ := h.left data hleft
  exact not_audit_of_data hname (haudit hmem)

theorem reaches_stopService {systemService : Bool} {name : String}
    (h : Reaches (ctlSem elevated) (stopService systemService name) m m') : m' = m := by
  cases systemService with
  | true =>
    obtain rfl | ⟨r, hM⟩ := reaches_askOr.mp h
    · rfl
    · exact hM
  | false => exact reaches_halt.mp h

/-- The key is deleted only when the data is gone. -/
theorem keyLeft_of_teardown {ks kept : KeystoreChoice} {systemService : Bool}
    (hks : ks = .defaultOs ∨ ks = .defaultFile dir) (hkept : kept.Resolved)
    (hsafe : kept = .defaultFile dir → m.hidden dir = true ∨ ¬ KeyListedFirst (m.names dir))
    (hos : ks = .defaultOs → kept = .defaultOs → m.hidden dir = true → ¬ DataLeft m dir)
    (hkey : KeyLeft m kept)
    (h : Reaches (ctlSem elevated) (teardown opts systemService dir ks) m m')
    (hdata : DataLeft m' dir) : KeyLeft m' kept := by
  obtain hstop | ⟨u, m₁, hstop, hrest⟩ := reaches_bind.mp h
  · rwa [reaches_stopService hstop]
  obtain rfl := reaches_stopService hstop.reaches
  obtain hcut | ⟨removal, m₂, hdone, hdelete⟩ := reaches_bind.mp hrest
  · exact keyLeft_of_cut hkept hsafe hkey (reaches_removeStateDir hcut) hdata
  obtain rfl | hdeleted := reaches_delete hdelete
  · exact keyLeft_of_cut hkept hsafe hkey (reaches_removeStateDir hdone.reaches) hdata
  -- the data was still there when the key was deleted: the directory was not looked into
  have hdata' : DataLeft m₂ dir := by
    obtain ⟨data, hname, hleft⟩ := hdata
    exact ⟨data, hname, names_of_deleted hdeleted hleft⟩
  obtain ⟨hhidden, rfl⟩ := (ends_removeStateDir hdone).resolve_right
    fun hclear => not_dataLeft_of_cleared hclear hdata'
  refine keyLeft_of_deleted hdeleted ?_ hkey
  rintro rfl
  obtain rfl | rfl := hks
  · exact hos rfl rfl hhidden hdata'
  · obtain ⟨hfound, -⟩ := hdeleted
    have hopen : m₂.hidden dir = false := by
      simpa [Machine.found, masterKeyPath] using (Bool.and_eq_true_iff.mp hfound).1
    simp [hopen] at hhidden

/-! ## The command -/

theorem reaches_resolve (h : Reaches (ctlSem elevated) (resolveCliTarget host opts) m m') :
    m' = m := by
  refine h.eq_of_uses (A := fun o : CtlOp => ∃ path, o = .probe path) ?_ ?_
  · unfold resolveCliTarget
    split_ifs
    · refine uses_bind ⟨⟨_, rfl⟩, fun _ => uses_halt _⟩ fun systemHasConfig => ?_
      refine uses_bind ⟨⟨_, rfl⟩, fun _ => uses_halt _⟩ fun legacyHasConfig => ?_
      split_ifs
      · refine uses_bind ⟨⟨_, rfl⟩, fun _ => uses_halt _⟩ fun hasKey => ?_
        split_ifs <;> exact uses_halt _
      · exact uses_halt _
    · exact uses_halt _
  · rintro m o r m' ⟨path, rfl⟩ hM
    exact hM.1

theorem ends_probe_bind {α : Type} {path : Path} {f : (CtlOp.probe path).Res → CtlProg α} {a : α} :
    Ends (ctlSem elevated) ((ask (.probe path)).bind f) m a m' ↔
      Ends (ctlSem elevated) (f (m.found path)) m a m' := by
  rw [ends_bind]
  constructor
  · rintro ⟨found, m₁, hask, h⟩
    obtain ⟨rfl, rfl⟩ := ends_ask.mp hask
    exact h
  · intro h
    exact ⟨_, m, ends_ask.mpr ⟨rfl, rfl⟩, h⟩

theorem ends_resolve {target : String × KeystoreChoice} :
    Ends (ctlSem elevated) (resolveCliTarget host opts) m target m' ↔
      target = resolved host opts m ∧ m' = m := by
  unfold resolveCliTarget resolved
  cases hflags : (opts.stateDir.isNone && !opts.user) with
  | false => simp
  | true =>
    refine ends_probe_bind.trans (ends_probe_bind.trans ?_)
    dsimp only
    rw [Bool.true_and]
    cases shouldUseLegacyUserDir host.defaultStateDir (m.found (sealedPath host.defaultStateDir))
      host.defaultUserStateDir (m.found (sealedPath host.defaultUserStateDir)) with
    | false => simp
    | true =>
      refine ends_probe_bind.trans ?_
      cases m.found (masterKeyPath host.defaultUserStateDir) <;> simp

theorem flagTarget_keystore (host : Host) (opts : UninstallOpts) :
    (flagTarget host opts).2 = .defaultOs ∨
      (flagTarget host opts).2 = .defaultFile (flagTarget host opts).1 := by
  dsimp only [flagTarget]
  cases opts.user && !opts.fileKeystore with
  | true => exact Or.inl rfl
  | false => exact Or.inr rfl

theorem resolved_keystore (host : Host) (opts : UninstallOpts) (m : Machine) :
    (resolved host opts m).2 = .defaultOs ∨
      (resolved host opts m).2 = .defaultFile (resolved host opts m).1 := by
  dsimp only [resolved]
  split_ifs with hlegacy hkey
  · exact Or.inr rfl
  · exact Or.inl rfl
  · exact flagTarget_keystore host opts

theorem reaches_confirmed (h : Reaches (ctlSem elevated) (confirmed opts) m m') : m' = m := by
  refine h.eq_of_uses (A := fun o : CtlOp => o = .isTerminal ∨ o = .confirm) ?_ ?_
  · unfold confirmed
    split_ifs
    · exact uses_halt _
    · refine uses_bind ⟨Or.inl rfl, fun _ => uses_halt _⟩ fun terminal => ?_
      split_ifs
      · exact uses_bind ⟨Or.inr rfl, fun _ => uses_halt _⟩ fun _ => uses_ofExcept _
      · exact uses_halt _
  · rintro m o r m' (rfl | rfl) hM
    · exact hM
    · exact hM

theorem confirmed_can : Ends (ctlSem elevated) (confirmed opts) m true m := by
  unfold confirmed
  split_ifs
  · exact ends_halt_ok.mpr ⟨rfl, rfl⟩
  · refine ends_bind.mpr ⟨true, m, ends_ask.mpr rfl, ?_⟩
    exact ends_bind.mpr ⟨.ok true, m, ends_ask.mpr rfl, ends_ofExcept.mpr ⟨rfl, rfl⟩⟩

theorem isSystemService_iff {ks : KeystoreChoice} :
    isSystemService host opts.user dir ks = true → opts.user = false ∧ isOs ks = false := by
  intro h
  simp only [isSystemService, Bool.and_eq_true, Bool.not_eq_true'] at h
  exact h.1

/-- The flags that are forwarded name the same target in every environment. -/
theorem resolved_forwarded (opts : UninstallOpts) (host' : Host) (uac : Bool) (m : Machine) (dir : String) :
    resolved host' { forwardedArgs opts true dir (.defaultFile dir) with uac := uac } m =
      (dir, .defaultFile dir) := by
  simp [resolved, forwardedArgs, flagTarget, isOs, KeystoreChoice.defaultFile]

/-- Whatever is reached by the command, in any environment. -/
theorem keyLeft_of_run {kept : KeystoreChoice} (hkept : kept.Resolved)
    (hsafe : ¬ KeyEndangered host opts m kept) (hkey : KeyLeft m kept)
    (helevated : ∀ dir, resolved host opts m = (dir, .defaultFile dir) → opts.user = false →
      nameCheck opts = .ok () → ∀ m', elevated (forwardedArgs opts true dir (.defaultFile dir)) m m' →
      DataLeft m' dir → KeyLeft m' kept)
    (h : Reaches (ctlSem elevated) (run host opts) m m')
    (hdata : DataLeft m' (resolved host opts m).1) : KeyLeft m' kept := by
  obtain hcheck | ⟨u, m₁, hcheck, hrest⟩ := reaches_bind.mp h
  · rwa [reaches_ofExcept.mp hcheck]
  obtain ⟨hname, rfl⟩ := ends_ofExcept.mp hcheck
  obtain hresolve | ⟨target, m₂, hresolve, hclear⟩ := reaches_bind.mp hrest
  · rwa [reaches_resolve hresolve]
  obtain ⟨rfl, rfl⟩ := ends_resolve.mp hresolve
  have hks := resolved_keystore host opts m₂
  unfold KeyEndangered at hsafe
  generalize htarget : resolved host opts m₂ = target at *
  obtain ⟨dir, ks⟩ := target
  have hthis : ∀ dangers, ¬ (nameCheck opts = .ok () ∧ dangers) → ¬ dangers :=
    fun _ h hd => h ⟨hname, hd⟩
  obtain ⟨hfile, hos⟩ := not_or.mp (hthis _ hsafe)
  obtain hconfirm | ⟨go, m₃, hconfirm, hgo⟩ := reaches_bind.mp hclear
  · rwa [reaches_confirmed hconfirm]
  obtain rfl := reaches_confirmed hconfirm.reaches
  cases go with
  | false => rwa [reaches_halt.mp hgo]
  | true =>
    rw [if_pos rfl] at hgo
    split_ifs at hgo with helevate
    · obtain ⟨huser, hnotOs⟩ := isSystemService_iff (Bool.and_eq_true_iff.mp helevate).1
      obtain rfl : ks = .defaultFile dir := hks.resolve_left (by rintro rfl; simp [KeystoreChoice.defaultOs, isOs] at hnotOs)
      obtain rfl | ⟨r, hM⟩ := reaches_askOr.mp hgo
      · exact hkey
      · exact helevated dir rfl huser hname m' hM hdata
    · refine keyLeft_of_teardown hks hkept ?_ ?_ hkey hgo hdata
      · intro hk
        by_contra hnot
        rw [not_or, not_not, Bool.not_eq_true] at hnot
        exact hfile ⟨hk, hnot.1, hnot.2⟩
      · intro hks hk hhidden hleft
        exact hos ⟨hks, hk, hhidden, hleft, hkey⟩

theorem nameCheck_forwarded (huser : opts.user = false) (uac : Bool) (ks : KeystoreChoice) :
    nameCheck { forwardedArgs opts true dir ks with uac := uac } = nameCheck opts := by
  simp [nameCheck, forwardedArgs, huser]

/-- Where nothing endangers the key, it outlives the data, in the elevated process too. -/
theorem keyOutlivesData {kept : KeystoreChoice} (hkept : kept.Resolved)
    (hsafe : ¬ KeyEndangered host opts m kept) : KeyOutlivesData host opts m kept := by
  intro hkey
  refine always_iff_reaches.mpr fun m' hreach hdata => ?_
  refine keyLeft_of_run hkept hsafe hkey ?_ hreach hdata
  rintro dir hresolved huser hname m₁ ⟨host', uac, t, -, hstops⟩ hdata'
  have hresolved' := resolved_forwarded opts host' uac m dir
  have hsafe' : ¬ KeyEndangered host' { forwardedArgs opts true dir (.defaultFile dir) with uac := uac }
      m kept := by
    unfold KeyEndangered at hsafe ⊢
    rw [hresolved', nameCheck_forwarded huser]
    rwa [hresolved] at hsafe
  refine keyLeft_of_run hkept hsafe' hkey ?_ ⟨t, hstops⟩ (by rwa [hresolved'])
  -- the elevated process does not elevate again
  rintro dir' - - - m₂ rfl -
  exact hkey

/-! ## Where it fails -/

/-- What a removal in this process reaches, the command reaches here, if it need not elevate. -/
theorem run_can {dir : String} {ks : KeystoreChoice} (hname : nameCheck opts = .ok ())
    (hresolved : resolved host opts m = (dir, ks))
    (hhere : (isSystemService host opts.user dir ks && host.needsServiceElevation opts.uac) = false)
    (h : Reaches (ctlSem elevated) (do
      let _ ← removeStateDir dir opts.purgeAudit
      delete ks) m m') :
    Reaches (ctlSem elevated) (run host opts) m m' := by
  refine reaches_bind.mpr (Or.inr ⟨(), m, ends_ofExcept.mpr ⟨hname, rfl⟩, ?_⟩)
  refine reaches_bind.mpr (Or.inr ⟨(dir, ks), m, ends_resolve.mpr ⟨hresolved.symm, rfl⟩, ?_⟩)
  refine reaches_bind.mpr (Or.inr ⟨true, m, confirmed_can, ?_⟩)
  have hstop : Ends (ctlSem elevated)
      (stopService (isSystemService host opts.user dir ks) opts.serviceName) m () m := by
    cases isSystemService host opts.user dir ks with
    | true => exact ends_askOr.mpr ⟨.ok (), rfl, rfl⟩
    | false => exact ends_halt_ok.mpr ⟨rfl, rfl⟩
  rw [if_pos rfl, hhere]
  exact reaches_bind.mpr (Or.inr ⟨(), m, hstop, h⟩)

theorem run_can_elevated {dir : String} {Q : Machine → Prop} (hname : nameCheck opts = .ok ())
    (hresolved : resolved host opts m = (dir, .defaultFile dir))
    (h : ∀ elevated, ∃ m', Q m' ∧ Reaches (ctlSem elevated) (do
      let _ ← removeStateDir dir opts.purgeAudit
      delete (.defaultFile dir)) m m') :
    ∃ m', Q m' ∧ Reaches uninstallSem (run host opts) m m' := by
  cases helevate : (isSystemService host opts.user dir (.defaultFile dir) &&
      host.needsServiceElevation opts.uac) with
  | false =>
    obtain ⟨m', hm', hreach⟩ := h Elevated
    exact ⟨m', hm', run_can hname hresolved helevate hreach⟩
  | true =>
    obtain ⟨huser, -⟩ := isSystemService_iff (Bool.and_eq_true_iff.mp helevate).1
    obtain ⟨m', hm', hreach⟩ := h fun _ m m' => m' = m
    let child : Host := { host with needsServiceElevation := fun _ => false }
    have hchild : Reaches (ctlSem fun _ m m' => m' = m)
        (run child { forwardedArgs opts true dir (.defaultFile dir) with uac := false }) m m' :=
      run_can (by rwa [nameCheck_forwarded huser])
        (resolved_forwarded opts child false m dir) (by simp [child]) hreach
    obtain ⟨t, ht⟩ := hchild
    refine ⟨m', hm', ?_⟩
    refine reaches_bind.mpr (Or.inr ⟨(), m, ends_ofExcept.mpr ⟨hname, rfl⟩, ?_⟩)
    refine reaches_bind.mpr (Or.inr ⟨_, m, ends_resolve.mpr ⟨hresolved.symm, rfl⟩, ?_⟩)
    refine reaches_bind.mpr (Or.inr ⟨true, m, confirmed_can, ?_⟩)
    rw [if_pos rfl, helevate]
    exact reaches_askOr.mpr (Or.inr ⟨.ok (), child, false, t, fun _ => rfl, ht⟩)

theorem keyListedFirst_split {names : List String} (h : KeyListedFirst names) :
    ∃ pre post, names = (pre ++ ["master.key"]) ++ post ∧ ∃ name ∈ dataNames, name ∈ post := by
  obtain ⟨data, hname, hmem⟩ := h
  have hnotKey : data ≠ "master.key" := by
    rintro rfl
    revert hname
    decide
  induction names with
  | nil => exact absurd hmem List.not_mem_nil
  | cons first rest ih =>
    by_cases hfirst : first = "master.key"
    · subst hfirst
      refine ⟨[], rest, rfl, data, hname, ?_⟩
      rw [List.dropWhile_cons_of_neg (by simp)] at hmem
      exact (List.mem_cons.mp hmem).resolve_left hnotKey
    · rw [List.dropWhile_cons_of_pos (by simpa using hfirst)] at hmem
      obtain ⟨pre, post, hrest, hpost⟩ := ih hmem
      exact ⟨first :: pre, post, by rw [hrest]; rfl, hpost⟩

/-- The walk removes the key and is cut off before it comes to the data. -/
theorem removal_loses_key (purgeAudit : Bool) (ks : KeystoreChoice) (hhidden : m.hidden dir = false)
    (hlisted : KeyListedFirst (m.names dir)) (elevated : UninstallOpts → Machine → Machine → Prop) :
    ∃ m', (DataLeft m' dir ∧ ¬ KeyLeft m' (.defaultFile dir)) ∧ Reaches (ctlSem elevated) (do
      let _ ← removeStateDir dir purgeAudit
      delete ks) m m' := by
  obtain ⟨pre, post, hnames, data, hname, hpost⟩ := keyListedFirst_split hlisted
  have hmem : data ∈ m.names dir := by
    rw [hnames]
    exact List.mem_append_right _ hpost
  have hthere : (m.dirs dir).isSome = true := by
    cases hdir : m.dirs dir with
    | some listing => rfl
    | none => rw [Machine.names, hdir] at hmem; exact absurd hmem List.not_mem_nil
  have hcan : ∃ m', Cleared dir (pre ++ ["master.key"]) m m' ∧
      Reaches (ctlSem elevated) (removeStateDir dir purgeAudit) m m' :=
    removeStateDir_can hhidden hthere hnames
  obtain ⟨m', hclear, hreach⟩ := hcan
  refine ⟨m', ⟨⟨data, hname, hclear.stays data hmem ?_⟩, ?_⟩, reaches_bind.mpr (Or.inl hreach)⟩
  · have hdisjoint := (List.nodup_append.mp (hnames ▸ names_nodup m dir)).2.2
    exact fun hpre => hdisjoint data hpre data hpost rfl
  · intro hkey
    have haudit := (hclear.left "master.key" hkey).2 (List.mem_append_right _ List.mem_cons_self)
    revert haudit
    decide

/-- Where the directory cannot be looked into, nothing is removed but the key. -/
theorem hidden_loses_key (purgeAudit : Bool) (hhidden : m.hidden dir = true)
    (hkey : KeyLeft m .defaultOs) (elevated : UninstallOpts → Machine → Machine → Prop) :
    Reaches (ctlSem elevated) (do
      let _ ← removeStateDir dir purgeAudit
      delete .defaultOs) m (m.withoutCredential "middlewhere" "default") := by
  have habsent : Ends (ctlSem elevated) (removeStateDir dir purgeAudit) m .absent m := by
    rw [removeStateDir_eq]
    refine ends_bind.mpr ⟨false, m, ends_ask.mpr ⟨rfl, by simp [hhidden]⟩, ?_⟩
    exact ends_halt_ok.mpr ⟨rfl, rfl⟩
  refine reaches_bind.mpr (Or.inr ⟨.absent, m, habsent, ?_⟩)
  refine reaches_bind.mpr (Or.inr ⟨.ok (), _, ends_ask.mpr ⟨hkey, rfl⟩, ?_⟩)
  exact reaches_halt.mpr rfl

theorem not_keyOutlivesData {kept : KeystoreChoice} (h : KeyEndangered host opts m kept) :
    ¬ KeyOutlivesData host opts m kept := by
  have hks := resolved_keystore host opts m
  unfold KeyEndangered at h
  intro houtlives
  unfold KeyOutlivesData at houtlives
  rw [always_iff_reaches] at houtlives
  generalize htarget : resolved host opts m = target at *
  obtain ⟨dir, ks⟩ := target
  replace hks : ks = .defaultOs ∨ ks = .defaultFile dir := hks
  obtain ⟨hname, ⟨rfl, hhidden, hlisted⟩ | ⟨rfl, rfl, hhidden, hdata, hkey⟩⟩ := h
  · have hkey : KeyLeft m (.defaultFile dir) := by
      obtain ⟨pre, post, hnames, -⟩ := keyListedFirst_split hlisted
      have hmem : "master.key" ∈ m.names dir := by simp [hnames]
      exact hmem
    have hlost : ∃ m', (DataLeft m' dir ∧ ¬ KeyLeft m' (.defaultFile dir)) ∧
        Reaches uninstallSem (run host opts) m m' := by
      obtain rfl | rfl := hks
      · obtain ⟨m', hm', hreach⟩ := removal_loses_key opts.purgeAudit .defaultOs hhidden hlisted Elevated
        exact ⟨m', hm', run_can hname htarget (by simp [isSystemService, isOs, KeystoreChoice.defaultOs]) hreach⟩
      · exact run_can_elevated hname htarget (removal_loses_key opts.purgeAudit _ hhidden hlisted)
    obtain ⟨m', ⟨hdata, hgone⟩, hreach⟩ := hlost
    exact hgone (houtlives hkey m' hreach hdata)
  · have hreach : Reaches uninstallSem (run host opts) m _ :=
      run_can hname htarget (by simp [isSystemService, isOs, KeystoreChoice.defaultOs])
        (hidden_loses_key opts.purgeAudit hhidden hkey Elevated)
    have hgone := houtlives hkey _ hreach hdata
    simp [KeyLeft, KeystoreChoice.defaultOs, Machine.withoutCredential] at hgone

def serviceHost : Host where
  defaultStateDir := "/var/lib/middlewhere"
  defaultUserStateDir := "/root/.local/state/middlewhere"
  needsServiceElevation _ := false

def uninstallOpts : UninstallOpts where
  stateDir := none
  user := false
  fileKeystore := false
  serviceName := "mwsqld"
  yes := true
  purgeAudit := false
  uac := false

def deployed (listing : Listing) : Machine where
  dirs := Function.update (fun _ => none) "/var/lib/middlewhere" (some listing)
  hidden _ := false
  isDirectory path := path.name == "audit"
  credentials _ := false

end MiddleWhere.Ctl

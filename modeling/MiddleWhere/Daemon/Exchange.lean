import MiddleWhere.Ctl.ControlClient

/-!
# A client and the daemon

The two ends of a control connection, over a wire that may fail anywhere. The daemon performs at
most what the client asked for, once and only for a peer that may ask, and a client that gets a
value gets the daemon's answer to it. Without faults every exchange comes to its end, however
little the wire holds: the daemon reads the request before it answers, also when it refuses.
-/

namespace MiddleWhere.Daemon
open Prog Duplex
open Net (fromBe be be_length)
open Ctl.Client (clientSig clientPort lively_client exchange framed wire finish finish_ok framed_of_encode)

/-! ## Who the peer is -/

structure GroupInfo where
  gid : UInt32
  members : List String

structure UnixPeer where
  uid : UInt32
  primaryGid : UInt32
  user : String

/-- What the system says about the peer and about the users and groups it knows. -/
structure PeerLookup where
  peerCreds : Option (UInt32 × UInt32)
  resolveUser : UInt32 → Option (String × UInt32)
  resolveGroup : String → Option GroupInfo
  debug : String → String

def adminGroup : String := "middlewhere-admins"

def authorizeUnix (sys : PeerLookup) (peer : UnixPeer) (admins : GroupInfo) : AuthDecision :=
  if peer.uid = 0 then .allow
  else if peer.primaryGid = admins.gid then .allow
  else if peer.user ∈ admins.members then .allow
  else .deny ("uid " ++ toString peer.uid.toNat ++ " (user " ++ sys.debug peer.user ++
    ") is not root and not a member of the middlewhere-admins group (gid " ++
    toString admins.gid.toNat ++ ")")

def resolvePeer (sys : PeerLookup) : AuthDecision × PeerIdentity :=
  match sys.peerCreds with
  | none => (.deny "could not read peer credentials", ⟨none, none, ""⟩)
  | some (uid, gid) =>
    match sys.resolveUser uid with
    | none =>
      (.deny ("could not resolve uid " ++ toString uid.toNat ++ " to a user"), ⟨some uid, some gid, ""⟩)
    | some (user, primaryGid) =>
      match sys.resolveGroup adminGroup with
      | none =>
        (.deny ("group " ++ adminGroup ++ " not found; refusing"), ⟨some uid, some gid, user⟩)
      | some admins => (authorizeUnix sys ⟨uid, primaryGid, user⟩ admins, ⟨some uid, some gid, user⟩)

/-- The peer is root, has the admin group for its primary one, or is one of its members. -/
def Entitled (sys : PeerLookup) (peer : PeerIdentity) : Prop :=
  ∃ uid gid primaryGid admins, sys.peerCreds = some (uid, gid) ∧
    sys.resolveUser uid = some (peer.user, primaryGid) ∧ sys.resolveGroup adminGroup = some admins ∧
    peer.uid = some uid ∧ peer.gid = some gid ∧
    (uid = 0 ∨ primaryGid = admins.gid ∨ peer.user ∈ admins.members)

theorem authorizeUnix_eq_allow_iff {sys : PeerLookup} {peer : UnixPeer} {admins : GroupInfo} :
    authorizeUnix sys peer admins = .allow ↔
      peer.uid = 0 ∨ peer.primaryGid = admins.gid ∨ peer.user ∈ admins.members := by
  unfold authorizeUnix
  split_ifs with hroot hgroup hmember
  · exact iff_of_true rfl (Or.inl hroot)
  · exact iff_of_true rfl (Or.inr (Or.inl hgroup))
  · exact iff_of_true rfl (Or.inr (Or.inr hmember))
  · simp [hroot, hgroup, hmember]

/-- Whatever cannot be looked up is refused. -/
theorem resolvePeer_allow {sys : PeerLookup} {peer : PeerIdentity}
    (h : resolvePeer sys = (.allow, peer)) : Entitled sys peer := by
  unfold resolvePeer at h
  cases hcreds : sys.peerCreds with
  | none => simp [hcreds] at h
  | some creds =>
    obtain ⟨uid, gid⟩ := creds
    simp only [hcreds] at h
    cases huser : sys.resolveUser uid with
    | none => simp [huser] at h
    | some found =>
      obtain ⟨user, primaryGid⟩ := found
      simp only [huser] at h
      cases hgroup : sys.resolveGroup adminGroup with
      | none => simp [hgroup] at h
      | some admins =>
        simp only [hgroup, Prod.mk.injEq] at h
        obtain ⟨hallow, rfl⟩ := h
        exact ⟨uid, gid, primaryGid, admins, hcreds, huser, hgroup, rfl, rfl,
          authorizeUnix_eq_allow_iff.mp hallow⟩

/-! ## The daemon's end of the wire -/

/-- `answers` is what the handlers may answer. -/
def controlPort (verdict : AuthDecision × PeerIdentity)
    (answers : PeerIdentity → Request → Response → Prop) : Port controlSig UInt8
  | .recv n => .recv n .ok fun r => ∃ e, r = .error e
  | .resolve => .inner (· = verdict)
  | .emit _ => .inner fun _ => True
  | .dispatch peer req => .inner (answers peer req)
  | .write bytes => .send bytes (.ok ()) fun r => ∃ e, r = .error e
  | .flush => .send [] (.ok ()) fun r => ∃ e, r = .error e

/-- The frame of a response, if it has one. -/
def frame (codec : Codec) (resp : Response) : Bytes :=
  match writeFrame codec resp with
  | .ok bytes => bytes
  | .error _ => []

def versionMismatch : Response := .error "protocol version mismatch; upgrade the client"

/-- What a connection of a client of `version` that asks for `req` can have come to, by its calls
and by what the daemon has said. -/
inductive Conducted (codec : Codec) (verdict : AuthDecision × PeerIdentity)
    (answers : PeerIdentity → Request → Response → Prop) (version : UInt16) (req : Request) :
    List ControlEvent → Bytes → Prop
  | silent {t} : t.countP isDispatch = 0 → Conducted codec verdict answers version req t []
  | mismatched {t said} : version ≠ protocolVersion → t.countP isDispatch = 0 →
      said <+: frame codec versionMismatch → Conducted codec verdict answers version req t said
  | refused {t said reason peer} : version = protocolVersion → verdict = (.deny reason, peer) →
      t.countP isDispatch = 0 → denial reason peer ∈ t → said <+: frame codec (.denied reason) →
      Conducted codec verdict answers version req t said
  | performed {pre post said peer resp} : version = protocolVersion → verdict = (.allow, peer) →
      answers peer req resp → pre.countP isDispatch = 0 → post.countP isDispatch = 0 →
      said <+: frame codec resp →
      Conducted codec verdict answers version req (pre ++ ⟨.dispatch peer req, resp⟩ :: post) said

section
variable {codec : Codec} {verdict : AuthDecision × PeerIdentity}
  {answers : PeerIdentity → Request → Response → Prop} {version : UInt16} {req : Request}
  {faulty : Prop} {input : Bytes} {s s' : ℕ × Bytes} {t : List ControlEvent} {said : Bytes}

theorem countP_dispatch_eq_zero (h : ∀ e ∈ t, isDispatch e = false) : t.countP isDispatch = 0 :=
  List.countP_eq_zero.mpr fun e he hdispatch => by simp [h e he] at hdispatch

/-- Less said and one write less are still of that kind. -/
theorem Conducted.front {said' : Bytes} {e : ControlEvent}
    (h : Conducted codec verdict answers version req (t ++ [e]) said) (hsaid : said' <+: said)
    (hdispatch : isDispatch e = false) (hresolve : isResolve e = false) :
    Conducted codec verdict answers version req t said' := by
  have hquiet (h : (t ++ [e]).countP isDispatch = 0) : t.countP isDispatch = 0 := by
    rw [List.countP_append] at h
    omega
  generalize hwhole : t ++ [e] = whole at h
  cases h with
  | silent hnone =>
    obtain rfl := List.prefix_nil.mp hsaid
    exact .silent (hquiet (hwhole ▸ hnone))
  | mismatched hversion hnone hframe =>
    exact .mismatched hversion (hquiet (hwhole ▸ hnone)) (hsaid.trans hframe)
  | refused hversion hverdict hnone hdenial hframe =>
    rw [← hwhole] at hdenial
    rcases List.mem_append.mp hdenial with hmem | hmem
    · exact .refused hversion hverdict (hquiet (hwhole ▸ hnone)) hmem (hsaid.trans hframe)
    · rw [← List.mem_singleton.mp hmem] at hresolve
      cases hresolve
  | @performed pre post said peer resp hversion hverdict hanswer hpre hpost hframe =>
    rcases List.eq_nil_or_concat post with rfl | ⟨front, last, rfl⟩
    · obtain ⟨-, hlast⟩ := List.append_inj' hwhole rfl
      rw [List.singleton_inj.mp hlast] at hdispatch
      cases hdispatch
    · have hsplit : t ++ [e] = (pre ++ ⟨.dispatch peer req, resp⟩ :: front) ++ [last] := by
        rw [hwhole]
        simp
      obtain ⟨rfl, -⟩ := List.append_inj' hsplit rfl
      rw [List.concat_eq_append, List.countP_append] at hpost
      exact .performed hversion hverdict hanswer hpre (by omega) (hsaid.trans hframe)

theorem Conducted.less {said' : Bytes}
    (h : Conducted codec verdict answers version req t said) (hsaid : said' <+: said) :
    Conducted codec verdict answers version req t said' := by
  cases h with
  | silent hnone =>
    obtain rfl := List.prefix_nil.mp hsaid
    exact .silent hnone
  | mismatched hversion hnone hframe => exact .mismatched hversion hnone (hsaid.trans hframe)
  | refused hversion hverdict hnone hdenial hframe =>
    exact .refused hversion hverdict hnone hdenial (hsaid.trans hframe)
  | performed hversion hverdict hanswer hpre hpost hframe =>
    exact .performed hversion hverdict hanswer hpre hpost (hsaid.trans hframe)

/-! ## The daemon alone -/

def ControlOp.Reads (o : ControlOp) : Prop := ∃ len, o = .recv len

/-- Reads are the only calls, and nothing is said. -/
theorem reads_always {α : Type} {p : ControlProg α} (hp : p.Uses ControlOp.Reads) :
    always (alone (controlPort verdict answers) faulty input) p
      (fun t s' => t.countP isDispatch = 0 ∧ s'.2 = s.2) s := by
  intro t s' hstops
  constructor
  · apply countP_dispatch_eq_zero
    intro e he
    obtain ⟨o, r⟩ := e
    obtain ⟨n, rfl⟩ := hstops.uses hp _ he
    rfl
  · refine said_of_reads ⟨t, hstops⟩ (uses_mono (fun o ho => ?_) hp)
    obtain ⟨n, rfl⟩ := ho
    exact ⟨n, _, _, rfl⟩

theorem readRequest_reads : (readRequest codec).Uses ControlOp.Reads := by
  have hrecv (n : ℕ) : (control (.recv n)).Uses ControlOp.Reads :=
    ⟨⟨n, rfl⟩, fun _ => uses_halt _⟩
  refine uses_bind (hrecv 4) fun r => uses_bind (uses_ofExcept _) fun lenBuf => ?_
  dsimp only
  split_ifs with hmax
  · exact uses_halt _
  · exact uses_bind (hrecv _) fun r => uses_bind (uses_ofExcept _) fun body => uses_ofExcept _

/-- A request that is read is the first frame of what is left. -/
theorem readRequest_wp : wp (alone (controlPort verdict answers) faulty input) (readRequest codec)
    (fun t out s' => t.countP isDispatch = 0 ∧ s'.2 = s.2 ∧ out ≠ .panic ∧
      ∀ r, out = .ok r → ∃ body, splitFrame (input.drop s.1) = some (body, input.drop s'.1) ∧
        codec.decode body = .ok r) s := by
  intro t out s' hexec
  obtain ⟨hquiet, hsaid⟩ := reads_always readRequest_reads t s' hexec.stops
  refine ⟨hquiet, hsaid, ?_⟩
  have hfailed {e : String} {Q : Request → Prop} : (.err e : Outcome String Request) ≠ .panic ∧
      ∀ r, (.err e : Outcome String Request) = .ok r → Q r :=
    ⟨by simp, fun r h => absurd h (by simp)⟩
  obtain ⟨r₁, s₁, t₁, hM₁, hrest, -⟩ := exec_call_iff.mp hexec
  obtain ⟨hfour, rfl, rfl⟩ | ⟨-, ⟨e, rfl⟩, -⟩ := hM₁
  · simp only [ofExcept_ok, bind_eq, halt_ok_bind] at hrest
    by_cases hmax : maxFrame < fromBe ((input.drop s.1).take 4)
    · rw [if_pos hmax] at hrest
      obtain ⟨-, rfl, -⟩ := exec_halt_iff.mp hrest
      exact hfailed
    · rw [if_neg hmax] at hrest
      obtain ⟨r₂, s₂, t₂, hM₂, hlast, -⟩ := exec_call_iff.mp hrest
      obtain ⟨hthere, rfl, rfl⟩ | ⟨-, ⟨e, rfl⟩, -⟩ := hM₂
      · simp only [ofExcept_ok, halt_ok_bind] at hlast
        dsimp only at hthere hlast
        have hhead : (input.drop s.1).length = input.length - s.1 := List.length_drop
        have hlong : fromBe ((input.drop s.1).take 4) ≤ ((input.drop s.1).drop 4).length := by
          rw [List.length_drop]
          omega
        have hsplit := splitFrame_eq_some_iff.mpr ⟨⟨by omega, by omega, hlong⟩, rfl, rfl⟩
        have hcopy := readFrame_copy codec (List.length_take_of_le (by omega))
          (List.length_take_of_le hlong) (by omega)
        rw [List.drop_drop] at hcopy
        rw [hcopy] at hlast
        cases hdecode : codec.decode (((input.drop (s.1 + 4))).take
            (fromBe ((input.drop s.1).take 4))) with
        | error e =>
          rw [hdecode] at hlast
          obtain ⟨-, rfl, -⟩ := exec_halt_iff.mp hlast
          exact hfailed
        | ok r =>
          rw [hdecode] at hlast
          obtain ⟨-, rfl, rfl⟩ := exec_halt_iff.mp hlast
          refine ⟨by simp, fun r' hr => ⟨_, ?_, hdecode ▸ congrArg Except.ok (Outcome.ok.inj hr)⟩⟩
          rw [hsplit]
          simp only [List.drop_drop]
      · obtain ⟨-, rfl, -⟩ := exec_halt_iff.mp hlast
        exact hfailed
  · obtain ⟨-, rfl, -⟩ := exec_halt_iff.mp hrest
    exact hfailed

theorem reply_always (resp : Response) :
    always (alone (controlPort verdict answers) faulty input) (reply codec resp)
      (fun t s' => t.countP isDispatch = 0 ∧ ∃ front, front <+: frame codec resp ∧
        s'.2 = s.2 ++ front) s := by
  have hnone {t : List ControlEvent} (ht : t.countP isDispatch = 0) {s' : ℕ × Bytes}
      (hs : s' = s) : t.countP isDispatch = 0 ∧ ∃ front, front <+: frame codec resp ∧
        s'.2 = s.2 ++ front :=
    ⟨ht, [], List.nil_prefix, by rw [hs, List.append_nil]⟩
  unfold reply writeResponse frame
  cases hbuf : writeFrame codec resp with
  | error e => exact always_halt.mpr ⟨rfl, [], List.nil_prefix, (List.append_nil _).symm⟩
  | ok buf =>
    refine always_call.mpr ⟨⟨rfl, [], List.nil_prefix, (List.append_nil _).symm⟩, fun r s₁ hM => ?_⟩
    obtain ⟨rfl, rfl⟩ | ⟨-, ⟨e, rfl⟩, -, front, hfront, hs⟩ := hM
    · have hwhole : ∃ front, front <+: buf ∧ s.2 ++ buf = s.2 ++ front :=
        ⟨buf, List.prefix_refl _, rfl⟩
      refine always_call.mpr ⟨⟨rfl, hwhole⟩, fun r s₂ hM => ?_⟩
      have hsame : s₂.2 = s.2 ++ buf := by
        obtain ⟨-, rfl⟩ | ⟨-, -, -, front, hfront, hs⟩ := hM
        · exact List.append_nil _
        · rw [hs, List.prefix_nil.mp hfront, List.append_nil]
      cases r with
      | ok _ => exact always_halt.mpr ⟨rfl, buf, List.prefix_refl _, hsame⟩
      | error e => exact always_halt.mpr ⟨rfl, buf, List.prefix_refl _, hsame⟩
    · exact always_halt.mpr ⟨rfl, front, hfront, hs⟩

/-- A reply once the pending request is drained. -/
theorem drain_reply_always (resp : Response) :
    always (alone (controlPort verdict answers) faulty input)
      ((drainPendingRequest codec).bind fun _ => reply codec resp)
      (fun t s' => t.countP isDispatch = 0 ∧ ∃ front, front <+: frame codec resp ∧
        s'.2 = s.2 ++ front) s := by
  have hdrained : (drainPendingRequest codec).Uses ControlOp.Reads :=
    uses_bind (uses_attempt readRequest_reads) fun _ => uses_halt _
  refine always_bind.mpr ⟨?_, fun t out s₁ hexec _ _ => ?_⟩
  · refine always_mono (reads_always hdrained) fun t s₁ h => ?_
    exact ⟨h.1, [], List.nil_prefix, by rw [h.2, List.append_nil]⟩
  · obtain ⟨hquiet, hsaid⟩ := reads_always hdrained _ _ hexec.stops
    refine always_mono (reply_always _) fun t₂ s₂ h => ?_
    obtain ⟨hquiet₂, front, hfront, hs⟩ := h
    exact ⟨by simp [hquiet, hquiet₂], front, hfront, by rw [hs, hsaid]⟩

theorem splitFrame_append {stream body rest : Bytes} (h : splitFrame stream = some (body, rest))
    (more : Bytes) : splitFrame (stream ++ more) = some (body, rest ++ more) := by
  obtain ⟨⟨hfour, hmax, hlen⟩, rfl, rfl⟩ := splitFrame_eq_some_iff.mp h
  have htake : (stream ++ more).take 4 = stream.take 4 := List.take_append_of_le_length hfour
  have hdrop : (stream ++ more).drop 4 = stream.drop 4 ++ more := List.drop_append_of_le_length hfour
  refine splitFrame_eq_some_iff.mpr ⟨⟨by simp; omega, by rwa [htake], ?_⟩, ?_, ?_⟩
  · rw [htake, hdrop, List.length_append]
    omega
  · rw [htake, hdrop, List.take_append_of_le_length hlen]
  · rw [htake, hdrop, List.drop_append_of_le_length hlen]

variable {client : Ctl.Client.Codec}

theorem splitFrame_framed {msg : Request} (hframe : framed client msg ≠ []) (tail : Bytes) :
    ∃ body, client.encode msg = .ok body ∧
      splitFrame (framed client msg ++ tail) = some (body, tail) := by
  obtain ⟨body, hbody, hmax⟩ := Ctl.Client.framed_ne_nil hframe
  exact ⟨body, hbody, by rw [framed_of_encode hbody hmax, splitFrame_frame hmax]⟩

/-- A message that is read off the front of a client's words is the one that the client sent. -/
theorem sent_of_read (hcodec : Inverts client.encode codec.decode) {msg r : Request}
    {tail body rest more : Bytes} (hinput : input ++ more = framed client msg ++ tail)
    (hframe : framed client msg ≠ []) (hsplit : splitFrame input = some (body, rest))
    (hr : codec.decode body = .ok r) : r = msg ∧ rest ++ more = tail := by
  obtain ⟨body', hencode, hwhole⟩ := splitFrame_framed hframe tail
  rw [← hinput, splitFrame_append hsplit more] at hwhole
  obtain ⟨rfl, rfl⟩ := Prod.mk.inj (Option.some.inj hwhole)
  have hdecode := hcodec msg body hencode
  rw [hr] at hdecode
  exact ⟨Except.ok.inj hdecode, rfl⟩

theorem splitFrame_nil : splitFrame [] = none := rfl

/-- Whatever front of the client's words arrives, the daemon performs at most what was asked. -/
theorem handleConn_conducts (hcodec : Inverts client.encode codec.decode)
    (hinput : input <+: wire client version req) :
    always (alone (controlPort verdict answers) faulty input) (handleConn codec)
      (fun t s' => Conducted codec verdict answers version req t s'.2) (0, []) := by
  have hsilent {t : List ControlEvent} {s' : ℕ × Bytes} (ht : t.countP isDispatch = 0)
      (hs : s'.2 = []) : Conducted codec verdict answers version req t s'.2 := hs ▸ .silent ht
  unfold handleConn
  refine always_bind.mpr ⟨?_, ?_⟩
  · exact always_mono (reads_always (uses_attempt readRequest_reads)) fun t s' h => hsilent h.1 h.2
  refine wp_attempt.mpr (wp_mono readRequest_wp ?_)
  intro t out s₁ h
  obtain ⟨hquiet, hsaid, -, hfirst⟩ := h
  intro a hout
  cases out with
  | panic => cases hout
  | err e =>
    cases hout
    exact always_halt.mpr (hsilent (by simpa using hquiet) hsaid)
  | ok first =>
    cases hout
    obtain ⟨body, hsplit, hdecode⟩ := hfirst first rfl
    rw [List.drop_zero] at hsplit
    obtain ⟨more, hmore⟩ := hinput
    have hhello : framed client (.hello version) ≠ [] := by
      intro hnone
      rw [wire, if_pos hnone] at hmore
      rw [(List.append_eq_nil_iff.mp hmore).1, splitFrame_nil] at hsplit
      cases hsplit
    rw [wire, if_neg hhello] at hmore
    obtain ⟨rfl, hrest⟩ := sent_of_read hcodec hmore hhello hsplit hdecode
    by_cases hversion : version = protocolVersion
    · simp only [if_pos hversion, control, perform, bind_eq, call_bind, halt_ok_bind]
      refine always_call.mpr ⟨hsilent (by simpa using hquiet) hsaid, fun r s₂ hM => ?_⟩
      obtain ⟨rfl, rfl⟩ := hM
      obtain ⟨decision, peer⟩ := r
      cases decision with
      | deny reason =>
        refine always_call.mpr ⟨hsilent (by simp [hquiet, isDispatch]) hsaid, fun _ s₃ hM => ?_⟩
        obtain ⟨-, rfl⟩ := hM
        refine always_mono (drain_reply_always _) fun t₂ s₄ h => ?_
        obtain ⟨hquiet₂, front, hfront, hs₄⟩ := h
        rw [hs₄, hsaid, List.nil_append]
        exact .refused hversion rfl (by simp [hquiet, isDispatch, hquiet₂]) (by simp [denial]) hfront
      | allow =>
        refine always_bind.mpr ⟨?_, ?_⟩
        · refine always_mono (reads_always (uses_attempt readRequest_reads)) fun t₂ s₃ h => ?_
          exact hsilent (by simp [hquiet, isDispatch, h.1]) (h.2.trans hsaid)
        refine wp_attempt.mpr (wp_mono readRequest_wp ?_)
        intro t₂ out₂ s₃ h
        obtain ⟨hquiet₂, hsaid₂, -, hsecond⟩ := h
        intro a hout₂
        cases out₂ with
        | panic => cases hout₂
        | err e =>
          cases hout₂
          exact always_halt.mpr (hsilent (by simp [hquiet, isDispatch, hquiet₂])
            (hsaid₂.trans hsaid))
        | ok second =>
          cases hout₂
          obtain ⟨body₂, hsplit₂, hdecode₂⟩ := hsecond second rfl
          have hreq : framed client req ≠ [] := by
            intro hnone
            rw [hnone] at hrest
            rw [(List.append_eq_nil_iff.mp hrest).1, splitFrame_nil] at hsplit₂
            cases hsplit₂
          have hwords : input.drop s₂.1 ++ more = framed client req ++ [] := by
            rw [hrest, List.append_nil]
          obtain ⟨rfl, -⟩ := sent_of_read hcodec hwords hreq hsplit₂ hdecode₂
          refine always_call.mpr ⟨hsilent (by simp [hquiet, isDispatch, hquiet₂])
            (hsaid₂.trans hsaid), fun resp s₄ hM => ?_⟩
          obtain ⟨hanswer, rfl⟩ := hM
          refine always_mono (reply_always _) fun t₃ s₅ h => ?_
          obtain ⟨hquiet₃, front, hfront, hs₅⟩ := h
          rw [hs₅, hsaid₂, hsaid, List.nil_append]
          have hpre : (t ++ ⟨.resolve, (.allow, peer)⟩ :: t₂).countP isDispatch = 0 := by
            simp [hquiet, isDispatch, hquiet₂]
          simpa using Conducted.performed hversion rfl hanswer hpre hquiet₃ hfront
    · simp only [if_neg hversion]
      refine always_mono (drain_reply_always _) fun t₂ s₂ h => ?_
      obtain ⟨hquiet₂, front, hfront, hs₂⟩ := h
      rw [hs₂, hsaid, List.nil_append]
      exact .mismatched hversion (by simp [hquiet, hquiet₂]) hfront

/-! ## The two together -/

variable {cap : ℕ} {c : Duplex.Config clientSig controlSig String String Response Unit UInt8}

theorem frame_ne_nil {resp : Response} (h : frame codec resp ≠ []) :
    ∃ body, codec.encode resp = .ok body ∧ body.length ≤ maxFrame ∧
      frame codec resp = be 4 body.length ++ body := by
  unfold frame writeFrame at h ⊢
  cases hbody : codec.encode resp with
  | error e => exact absurd (by simp [hbody, Bind.bind, Except.bind]) h
  | ok body =>
    simp only [hbody, Bind.bind, Except.bind] at h ⊢
    by_cases hmax : maxFrame < body.length
    · rw [if_pos hmax] at h
      exact absurd rfl h
    · rw [if_neg hmax]
      exact ⟨body, rfl, by omega, rfl⟩

/-- A response that is read off the front of the daemon's words is the one that it said. -/
theorem said_of_heard (hcodec : Inverts codec.encode client.decode) {resp heard : Response}
    {body rest : Bytes} (hsaid : said <+: frame codec resp)
    (hsplit : splitFrame said = some (body, rest)) (hheard : client.decode body = .ok heard) :
    heard = resp := by
  obtain ⟨more, hmore⟩ := hsaid
  have hwhole := splitFrame_append hsplit more
  rw [hmore] at hwhole
  have hsome : frame codec resp ≠ [] := by
    intro hnone
    rw [hnone, splitFrame_nil] at hwhole
    cases hwhole
  obtain ⟨body', hencode, hmax, hframe⟩ := frame_ne_nil hsome
  rw [hframe, ← List.append_nil (be 4 body'.length ++ body'), splitFrame_frame hmax] at hwhole
  obtain ⟨rfl, -⟩ := Prod.mk.inj (Option.some.inj hwhole)
  have hdecode := hcodec resp body' hencode
  rw [hheard] at hdecode
  exact Except.ok.inj hdecode

theorem reach_conducts (hcodec : Inverts client.encode codec.decode)
    (h : Reach clientPort (controlPort verdict answers) True cap (exchange client version req)
      (handleConn codec) c) :
    Conducted codec verdict answers version req c.right.trace c.right.said := by
  have hinput : c.left.said <+: wire client version req := by
    obtain ⟨t, heard, said, hstops, hsaid, -⟩ := h.stops_left
    exact hsaid.trans (Ctl.Client.exchange_says ⟨t, hstops⟩)
  obtain ⟨t, heard, said, hstops, hsaid, htrace⟩ := h.swap.stops_left
  have hconducted := handleConn_conducts hcodec hinput t _ hstops
  obtain rfl | ⟨⟨o, r⟩, items, done, fails, rfl, hport⟩ := htrace
  · exact hconducted.less hsaid
  · cases o with
    | write bytes => exact hconducted.front hsaid rfl rfl
    | flush => exact hconducted.front hsaid rfl rfl
    | _ => cases hport

theorem reach_hears (h : Reach clientPort (controlPort verdict answers) faulty cap
      (exchange client version req) (handleConn codec) c) {resp : Response}
    (hdone : c.left.prog = .halt (.ok resp)) :
    ∃ body rest, splitFrame c.right.said = some (body, rest) ∧ client.decode body = .ok resp := by
  obtain ⟨heard, hexec⟩ := h.exec_left hdone
  exact Ctl.Client.exchange_hears ⟨_, hexec⟩

/-- Two splits of a trace at its one dispatch are one. -/
theorem split_unique {pre pre' post post' : List ControlEvent} {e e' : ControlEvent}
    (h : pre ++ e :: post = pre' ++ e' :: post') (he : isDispatch e = true)
    (hpre : pre'.countP isDispatch = 0) (hpost : post'.countP isDispatch = 0) :
    pre = pre' ∧ e = e' ∧ post = post' := by
  have hnot {t : List ControlEvent} (ht : t.countP isDispatch = 0) : e ∉ t :=
    fun hmem => List.countP_eq_zero.mp ht e hmem he
  rcases List.append_eq_append_iff.mp h with ⟨mid, rfl, hmid⟩ | ⟨mid, rfl, hmid⟩
  · cases mid with
    | nil =>
      obtain ⟨rfl, rfl⟩ := List.cons.inj hmid
      exact ⟨(List.append_nil _).symm, rfl, rfl⟩
    | cons m mid =>
      obtain ⟨rfl, -⟩ := List.cons.inj hmid
      exact absurd (by simp) (hnot hpre)
  · cases mid with
    | nil =>
      obtain ⟨rfl, rfl⟩ := List.cons.inj hmid
      exact ⟨List.append_nil _, rfl, rfl⟩
    | cons m mid =>
      obtain ⟨rfl, rfl⟩ := List.cons.inj hmid
      exact absurd (by simp) (hnot hpost)

end

section
variable {codec : Codec} {client : Ctl.Client.Codec} {sys : PeerLookup}
  {answers : PeerIdentity → Request → Response → Prop} {version : UInt16} {req : Request} {cap : ℕ}
  {c : Duplex.Config clientSig controlSig String String Response Unit UInt8}

/-- What a client was told, going by the trace of the daemon. -/
def Told (sys : PeerLookup) (version : UInt16) (req : Request) (t : List ControlEvent)
    (resp : Response) : Prop :=
  (∃ peer pre post, Entitled sys peer ∧ t = pre ++ ⟨.dispatch peer req, resp⟩ :: post) ∨
    (t.countP isDispatch = 0 ∧ ((∃ reason peer, resp = .denied reason ∧ denial reason peer ∈ t) ∨
      version ≠ protocolVersion ∧ resp = versionMismatch))

theorem Conducted.told {t : List ControlEvent} {said body rest : Bytes} {resp : Response}
    (h : Conducted codec (resolvePeer sys) answers version req t said)
    (hresp : Inverts codec.encode client.decode) (hsplit : splitFrame said = some (body, rest))
    (hdecode : client.decode body = .ok resp) : Told sys version req t resp := by
  cases h with
  | silent hnone => cases hsplit
  | mismatched hversion hnone hframe =>
    exact Or.inr ⟨hnone, Or.inr ⟨hversion, said_of_heard hresp hframe hsplit hdecode⟩⟩
  | refused hversion hverdict hnone hdenial hframe =>
    exact Or.inr ⟨hnone, Or.inl ⟨_, _, said_of_heard hresp hframe hsplit hdecode, hdenial⟩⟩
  | performed hversion hverdict hanswer hpre hpost hframe =>
    rw [said_of_heard hresp hframe hsplit hdecode]
    exact Or.inl ⟨_, _, _, resolvePeer_allow hverdict, rfl⟩

theorem Conducted.dispatched {said : Bytes} {pre post : List ControlEvent} {peer : PeerIdentity}
    {req' : Request} {resp : Response}
    (h : Conducted codec (resolvePeer sys) answers version req
      (pre ++ ⟨.dispatch peer req', resp⟩ :: post) said) :
    req' = req ∧ version = protocolVersion ∧ Entitled sys peer ∧ answers peer req resp ∧
      pre.countP isDispatch = 0 ∧ post.countP isDispatch = 0 := by
  have hone : ¬ (pre ++ ⟨.dispatch peer req', resp⟩ :: post : List ControlEvent).countP isDispatch
      = 0 := by
    simp [isDispatch]
  generalize hwhole : pre ++ (⟨.dispatch peer req', resp⟩ :: post : List ControlEvent) = t at h hone
  cases h with
  | silent hnone => exact absurd hnone hone
  | mismatched _ hnone _ => exact absurd hnone hone
  | refused _ _ hnone _ _ => exact absurd hnone hone
  | performed hversion hverdict hanswer hpre hpost hframe =>
    obtain ⟨rfl, hevent, rfl⟩ := split_unique hwhole rfl hpre hpost
    cases hevent
    exact ⟨rfl, hversion, resolvePeer_allow hverdict, hanswer, hpre, hpost⟩

theorem reach_told (hreq : Inverts client.encode codec.decode)
    (hresp : Inverts codec.encode client.decode)
    (h : Reach clientPort (controlPort (resolvePeer sys) answers) True cap
      (exchange client version req) (handleConn codec) c) {resp : Response}
    (hdone : c.left.prog = .halt (.ok resp)) : Told sys version req c.right.trace resp := by
  obtain ⟨body, rest, hsplit, hdecode⟩ := reach_hears h hdone
  exact (reach_conducts hreq h).told hresp hsplit hdecode

/-- A value is the answer to the request. -/
theorem Told.performed {t : List ControlEvent} {resp value : Response}
    (h : Told sys version req t resp) (hvalue : finish (.ok resp) = .ok value) :
    ∃ peer pre post, Entitled sys peer ∧ t = pre ++ ⟨.dispatch peer req, value⟩ :: post := by
  obtain ⟨hsame, hnotDenied, hnotError⟩ := finish_ok hvalue
  obtain rfl := Except.ok.inj hsame
  rcases h with hperformed | ⟨-, ⟨reason, peer, rfl, -⟩ | ⟨-, rfl⟩⟩
  · exact hperformed
  · exact absurd rfl (hnotDenied reason)
  · exact absurd rfl (hnotError _)

/-- Whatever fails on the way: what is dispatched is the client's request, once, for a peer that may
ask, and what the client is told is what came of it. -/
theorem exchange_faithful (hreq : Inverts client.encode codec.decode)
    (hresp : Inverts codec.encode client.decode)
    (h : Reach clientPort (controlPort (resolvePeer sys) answers) True cap
      (exchange client version req) (handleConn codec) c) :
    (∀ pre peer req' resp post, c.right.trace = pre ++ ⟨.dispatch peer req', resp⟩ :: post →
      req' = req ∧ version = protocolVersion ∧ Entitled sys peer ∧ answers peer req resp ∧
        pre.countP isDispatch = 0 ∧ post.countP isDispatch = 0) ∧
    (∀ resp, c.left.prog = .halt (.ok resp) → Told sys version req c.right.trace resp) ∧
    ∀ resp value, c.left.prog = .halt (.ok resp) → finish (.ok resp) = .ok value →
      ∃ peer pre post, Entitled sys peer ∧
        c.right.trace = pre ++ ⟨.dispatch peer req, value⟩ :: post := by
  refine ⟨?_, fun resp hdone => reach_told hreq hresp h hdone, ?_⟩
  · intro pre peer req' resp post htrace
    have hconducted := reach_conducts hreq h
    rw [htrace] at hconducted
    exact hconducted.dispatched
  · intro resp value hdone hvalue
    exact (reach_told hreq hresp h hdone).performed hvalue

/-! ## Without faults -/

/-- What a connection without faults is to come to. -/
inductive Expected (verdict : AuthDecision × PeerIdentity)
    (answers : PeerIdentity → Request → Response → Prop) (version : UInt16) (req : Request) :
    Response → Prop
  | mismatched : version ≠ protocolVersion → Expected verdict answers version req versionMismatch
  | refused {reason peer} : version = protocolVersion → verdict = (.deny reason, peer) →
      Expected verdict answers version req (.denied reason)
  | performed {peer resp} : version = protocolVersion → verdict = (.allow, peer) →
      answers peer req resp → Expected verdict answers version req resp

section
variable {verdict : AuthDecision × PeerIdentity} {P : Bytes → Prop} {question body rest : Bytes}

theorem lively_control {verdict : AuthDecision × PeerIdentity}
    (hanswers : ∀ peer req, ∃ resp, answers peer req resp) :
    Lively (controlPort verdict answers) where
  fails o n got fails h := by
    cases o with
    | recv len =>
      cases h
      exact ⟨_, "", rfl⟩
    | _ => cases h
  inner o may h := by
    cases o with
    | resolve =>
      cases h
      exact ⟨verdict, rfl⟩
    | emit event =>
      cases h
      exact ⟨(), trivial⟩
    | dispatch peer req =>
      cases h
      exact hanswers peer req
    | _ => cases h

theorem serves_readRequest {α : Type} {k : Except String Request → ControlProg α} {r : Request}
    (hsplit : splitFrame question = some (body, rest)) (hr : codec.decode body = .ok r)
    (hk : Duplex.Serves (controlPort verdict answers) P (k (.ok r)) rest) :
    Duplex.Serves (controlPort verdict answers) P ((readRequest codec).attempt.bind k) question := by
  obtain ⟨⟨hfour, hmax, hlen⟩, rfl, rfl⟩ := splitFrame_eq_some_iff.mp hsplit
  have hcopy := readFrame_copy codec (List.length_take_of_le hfour)
    (List.length_take_of_le hlen) hmax
  refine ⟨hfour, ?_⟩
  simp only [ofExcept_ok, bind_eq, halt_ok_bind, if_neg (not_lt.mpr hmax)]
  refine ⟨hlen, ?_⟩
  simp only [ofExcept_ok, halt_ok_bind, hcopy, hr]
  exact hk

theorem serves_drain {k : Unit → ControlProg Unit} {r : Request}
    (hsplit : splitFrame question = some (body, rest)) (hr : codec.decode body = .ok r)
    (hk : Duplex.Serves (controlPort verdict answers) P (k ()) rest) :
    Duplex.Serves (controlPort verdict answers) P ((drainPendingRequest codec).bind k) question := by
  unfold drainPendingRequest
  rw [bind_eq, bind_assoc]
  exact serves_readRequest hsplit hr hk

theorem serves_reply {resp : Response} (hP : P (frame codec resp)) :
    Duplex.Serves (controlPort verdict answers) P (reply codec resp) [] := by
  unfold reply writeResponse
  unfold frame at hP
  cases hbuf : writeFrame codec resp with
  | error e =>
    rw [hbuf] at hP
    exact ⟨rfl, hP⟩
  | ok buf =>
    rw [hbuf] at hP
    exact ⟨rfl, buf, [], hP, (List.append_nil _).symm, [], rfl, rfl⟩

/-- The daemon reads both frames, whatever it makes of them. -/
theorem serves_handleConn (hcodec : Inverts client.encode codec.decode)
    (hhello : framed client (.hello version) ≠ []) (hframe : framed client req ≠ [])
    (hP : ∀ resp, Expected verdict answers version req resp → P (frame codec resp)) :
    Duplex.Serves (controlPort verdict answers) P (handleConn codec)
      (framed client (.hello version) ++ framed client req) := by
  obtain ⟨hello, hencode, hsplit⟩ := splitFrame_framed hhello (framed client req)
  obtain ⟨body, hencode', hsplit'⟩ := splitFrame_framed hframe []
  rw [List.append_nil] at hsplit'
  have hdecode' := hcodec _ _ hencode'
  refine serves_readRequest hsplit (hcodec _ _ hencode) ?_
  dsimp only
  by_cases hversion : version = protocolVersion
  · rw [if_pos hversion]
    refine fun r hr => ?_
    obtain rfl : r = verdict := hr
    obtain ⟨decision, peer⟩ := r
    cases decision with
    | deny reason =>
      intro _ _
      exact serves_drain hsplit' hdecode' (serves_reply (hP _ (.refused hversion rfl)))
    | allow =>
      refine serves_readRequest hsplit' hdecode' fun resp hresp => ?_
      exact serves_reply (hP _ (.performed hversion rfl hresp))
  · rw [if_neg hversion]
    exact serves_drain hsplit' hdecode' (serves_reply (hP _ (.mismatched hversion)))

/-- What a client may be sent: the frame of a response that is to be expected. -/
def Answer (codec : Codec) (verdict : AuthDecision × PeerIdentity)
    (answers : PeerIdentity → Request → Response → Prop) (version : UInt16) (req : Request)
    (said : Bytes) : Prop :=
  ∃ resp, Expected verdict answers version req resp ∧ said = frame codec resp

theorem asks_answer (hhello : framed client (.hello version) ≠ []) (hframe : framed client req ≠ [])
    (hfits : ∀ resp, Expected verdict answers version req resp → frame codec resp ≠ []) :
    Asks clientPort (Answer codec verdict answers version req) (exchange client version req)
      (framed client (.hello version) ++ framed client req) := by
  refine Ctl.Client.asks_exchange hhello hframe fun reply hreply => ?_
  obtain ⟨resp, hexpected, rfl⟩ := hreply
  obtain ⟨body, -, hmax, hbody⟩ := frame_ne_nil (hfits resp hexpected)
  exact Or.inr ⟨body, hmax, hbody⟩

theorem serves_answer (hreq : Inverts client.encode codec.decode)
    (hhello : framed client (.hello version) ≠ []) (hframe : framed client req ≠ []) :
    Duplex.Serves (controlPort verdict answers) (Answer codec verdict answers version req)
      (handleConn codec) (framed client (.hello version) ++ framed client req) :=
  serves_handleConn hreq hhello hframe fun resp hexpected => ⟨resp, hexpected, rfl⟩

/-- A client that was sent a whole answer has returned it. -/
theorem finished_response (hresp : Inverts codec.encode client.decode)
    (hhello : framed client (.hello version) ≠ []) (hframe : framed client req ≠ [])
    (hfits : ∀ resp, Expected verdict answers version req resp → frame codec resp ≠ [])
    (h : Reach clientPort (controlPort verdict answers) False cap (exchange client version req)
      (handleConn codec) c) (hdone : c.left.Done)
    (hsaid : Answer codec verdict answers version req c.right.said) :
    ∃ resp, c.left.prog = .halt (.ok resp) ∧ Expected verdict answers version req resp := by
  obtain ⟨out, hout⟩ := hdone
  obtain ⟨resp, hexpected, hsaid⟩ := hsaid
  obtain ⟨heard, hexec⟩ := h.exec_left hout
  obtain ⟨body, hencode, hmax, hbody⟩ := frame_ne_nil (hfits resp hexpected)
  have hsplit : splitFrame c.right.said = some (body, []) := by
    rw [hsaid, hbody, ← List.append_nil (be 4 body.length ++ body), splitFrame_frame hmax]
  have hsame := Ctl.Client.wp_exchange hhello hframe hsplit (hresp _ _ hencode) _ _ _ hexec
  exact ⟨resp, by rw [hout, hsame], hexpected⟩

/-- Without faults no exchange gets stuck and nobody writes to one that has hung up, however little
the wire holds and whatever the answer; the client ends with the response it is to get. -/
theorem exchange_completes (hreq : Inverts client.encode codec.decode)
    (hresp : Inverts codec.encode client.decode) (hhello : framed client (.hello version) ≠ [])
    (hframe : framed client req ≠ []) (hanswers : ∀ peer req, ∃ resp, answers peer req resp)
    (hfits : ∀ resp, Expected verdict answers version req resp → frame codec resp ≠ [])
    (hcap : 0 < cap) (h : Reach clientPort (controlPort verdict answers) False cap
      (exchange client version req) (handleConn codec) c) :
    ¬ Broken clientPort (controlPort verdict answers) c ∧
      Acc (fun c' c => Move clientPort (controlPort verdict answers) False cap c c') c ∧
      ((∃ c', Move clientPort (controlPort verdict answers) False cap c c') ∨
        c.right.Done ∧ ∃ resp, c.left.prog = .halt (.ok resp) ∧
          Expected verdict answers version req resp) := by
  have hasks : Asks clientPort (Answer codec verdict answers version req) _ _ :=
    asks_answer hhello hframe hfits
  obtain ⟨hwhole, hnext⟩ := h.completes hasks (serves_answer hreq hhello hframe) hcap lively_client
    (lively_control hanswers)
  refine ⟨hwhole, (move_wf _ _ False cap).apply c, hnext.imp_right fun hend => ?_⟩
  obtain ⟨⟨hdone, hdone'⟩, hsaid⟩ := hend
  exact ⟨hdone', finished_response hresp hhello hframe hfits h hdone hsaid⟩

end

end

/-! ## A credential that is added

In CBOR, a message is a map from its name to its fields, or its name if it has none. -/

def sampleCred : CredInputDto := ⟨"d", "u", "p"⟩

def addCredBytes : Bytes :=
  [0xa1, 0x67, 0x41, 0x64, 0x64, 0x43, 0x72, 0x65, 0x64, 0xa3, 0x64, 0x6e, 0x61, 0x6d, 0x65, 0x61,
    0x64, 0x6c, 0x62, 0x61, 0x63, 0x6b, 0x65, 0x6e, 0x64, 0x5f, 0x75, 0x73, 0x65, 0x72, 0x61, 0x75,
    0x68, 0x70, 0x61, 0x73, 0x73, 0x77, 0x6f, 0x72, 0x64, 0x61, 0x70]

def okBytes : Bytes := [0x62, 0x4f, 0x6b]

def sampleClientCodec : Ctl.Client.Codec where
  encode
    | .hello version => if version = 1 then .ok helloBytes else .error "not in the sample"
    | .addCred dto =>
      if dto.name = "d" ∧ dto.backendUser = "u" ∧ dto.password = "p" then .ok addCredBytes
      else .error "not in the sample"
    | _ => .error "not in the sample"
  decode body := if body = okBytes then .ok .ok else .error "not in the sample"

def sampleDaemonCodec : Codec where
  decode body :=
    if body = helloBytes then .ok (.hello 1)
    else if body = addCredBytes then .ok (.addCred sampleCred)
    else .error "not in the sample"
  encode
    | .ok => .ok okBytes
    | _ => .error "not in the sample"

theorem inverts_sampleRequest : Inverts sampleClientCodec.encode sampleDaemonCodec.decode := by
  intro req body h
  cases req with
  | hello version =>
    simp only [sampleClientCodec] at h
    split_ifs at h with hversion
    rw [← Except.ok.inj h, hversion]
    rfl
  | addCred dto =>
    obtain ⟨name, backendUser, password⟩ := dto
    simp only [sampleClientCodec] at h
    split_ifs at h with hdto
    obtain ⟨rfl, rfl, rfl⟩ := hdto
    rw [← Except.ok.inj h]
    rfl
  | _ => cases h

theorem inverts_sampleResponse : Inverts sampleDaemonCodec.encode sampleClientCodec.decode := by
  intro resp body h
  cases resp with
  | ok =>
    rw [← Except.ok.inj h]
    rfl
  | _ => cases h

def sampleLookup : PeerLookup where
  peerCreds := some (1000, 1000)
  resolveUser uid := if uid = 1000 then some ("alice", 1000) else none
  resolveGroup name := if name = adminGroup then some ⟨5000, ["alice"]⟩ else none
  debug s := "\"" ++ s ++ "\""

def sampleAnswers (_ : PeerIdentity) (_ : Request) (resp : Response) : Prop := resp = .ok

theorem resolvePeer_sample :
    resolvePeer sampleLookup = (.allow, ⟨some 1000, some 1000, "alice"⟩) := by decide

theorem framed_sample : framed sampleClientCodec (.hello protocolVersion) ≠ [] ∧
    framed sampleClientCodec (.addCred sampleCred) ≠ [] := by decide

theorem fits_sample {verdict : AuthDecision × PeerIdentity} {resp : Response}
    (hverdict : verdict.1 = .allow)
    (h : Expected verdict sampleAnswers protocolVersion (.addCred sampleCred) resp) :
    frame sampleDaemonCodec resp ≠ [] := by
  cases h with
  | mismatched hversion => exact absurd rfl hversion
  | refused _ hrefused => simp [hrefused] at hverdict
  | performed _ _ hok =>
    rw [hok]
    decide

/-- An exchange over a wire that holds one byte. -/
theorem sample_finished : ∃ c, Reach clientPort
    (controlPort (resolvePeer sampleLookup) sampleAnswers) True 1
      (exchange sampleClientCodec protocolVersion (.addCred sampleCred)) (handleConn sampleDaemonCodec) c ∧
    c.left.prog = .halt (.ok .ok) := by
  have hallow : (resolvePeer sampleLookup).1 = .allow := by rw [resolvePeer_sample]
  have hasks : Asks clientPort (Answer sampleDaemonCodec (resolvePeer sampleLookup)
      sampleAnswers protocolVersion (.addCred sampleCred)) _ _ :=
    asks_answer framed_sample.1 framed_sample.2 fun resp h => fits_sample hallow h
  have hserves : Duplex.Serves (controlPort (resolvePeer sampleLookup) sampleAnswers) _ _ _ :=
    serves_answer inverts_sampleRequest framed_sample.1 framed_sample.2
  have hlively : Lively (controlPort (resolvePeer sampleLookup) sampleAnswers) :=
    lively_control fun _ _ => ⟨.ok, rfl⟩
  obtain ⟨c, hreach, hfinished⟩ :=
    Reach.exists_finished .refl hasks hserves one_pos lively_client hlively
  obtain ⟨hdone, hdone'⟩ := hfinished
  have hsaid := (hreach.meeting hasks hserves).answer hdone'
  obtain ⟨resp, hout, hexpected⟩ := finished_response inverts_sampleResponse framed_sample.1
    framed_sample.2 (fun resp h => fits_sample hallow h) hreach hdone hsaid
  have hok : resp = .ok := by
    cases hexpected with
    | mismatched hversion => exact absurd rfl hversion
    | refused _ hrefused => simp [hrefused] at hallow
    | performed _ _ hok => exact hok
  exact ⟨c, hreach.weaken, hok ▸ hout⟩

theorem exchange_faithful_sample : ∃ c, Reach clientPort
    (controlPort (resolvePeer sampleLookup) sampleAnswers) True 1
      (exchange sampleClientCodec protocolVersion (.addCred sampleCred)) (handleConn sampleDaemonCodec) c ∧
    ∃ peer pre post, Entitled sampleLookup peer ∧
      c.right.trace = pre ++ ⟨.dispatch peer (.addCred sampleCred), .ok⟩ :: post := by
  obtain ⟨c, hreach, hout⟩ := sample_finished
  refine ⟨c, hreach, ?_⟩
  exact (exchange_faithful inverts_sampleRequest inverts_sampleResponse hreach).2.2 .ok .ok hout rfl

theorem exchange_completes_sample :
    ∃ c', Move clientPort (controlPort (resolvePeer sampleLookup) sampleAnswers) False 1
      (start (exchange sampleClientCodec protocolVersion (.addCred sampleCred)) (handleConn sampleDaemonCodec))
        c' := by
  have hallow : (resolvePeer sampleLookup).1 = .allow := by rw [resolvePeer_sample]
  have hstart : Reach clientPort (controlPort (resolvePeer sampleLookup) sampleAnswers) False 1
      (exchange sampleClientCodec protocolVersion (.addCred sampleCred)) (handleConn sampleDaemonCodec)
      (start _ _) := .refl
  have hanswers (peer req) : ∃ resp, sampleAnswers peer req resp := ⟨.ok, rfl⟩
  obtain ⟨-, -, hmove | ⟨⟨out, hdone⟩, -⟩⟩ := exchange_completes inverts_sampleRequest
    inverts_sampleResponse framed_sample.1 framed_sample.2 hanswers
    (fun resp h => fits_sample hallow h) one_pos hstart
  · exact hmove
  · cases hdone

end MiddleWhere.Daemon

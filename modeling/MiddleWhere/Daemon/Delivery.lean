import MiddleWhere.Daemon.Exchange
import MiddleWhere.Daemon.Handovers

/-!
# Exchanges one after another

Seen from the outside an exchange is one step: the request is performed, once, or it is not, and
then the client gets no value. The wire, the frames and what fails on the way do not show.
-/

namespace MiddleWhere.Daemon
open Prog Duplex
open Ctl.Client (clientSig clientPort exchange finish)

variable {deps : DaemonDeps} {Fine : Request → List DaemonEvent → Outcome String Response → Prop}
  {w w₁ w' : World} {t pre post : List ControlEvent} {peer : PeerIdentity} {req : Request}
  {resp : Response}

/-! ## What a connection leaves -/

/-- The daemon before and after the calls of a connection. -/
inductive Leaves (deps : DaemonDeps)
    (Fine : Request → List DaemonEvent → Outcome String Response → Prop) :
    World → List ControlEvent → World → Prop
  | here (w : World) : Leaves deps Fine w [] w
  | other {w w' e t} : isDispatch e = false → Leaves deps Fine w t w' →
      Leaves deps Fine w (e :: t) w'
  | performed {w w₁ w' peer req resp t calls} :
      Exec (settledSem deps) (dispatch deps peer req) w calls (.ok resp) w₁ →
      Fine req calls (.ok resp) → Leaves deps Fine w₁ t w' →
      Leaves deps Fine w (⟨.dispatch peer req, resp⟩ :: t) w'

theorem Leaves.of_quiet (h : Leaves deps Fine w t w') (hquiet : t.countP isDispatch = 0) :
    w' = w := by
  induction h with
  | here => rfl
  | other he _ ih =>
    rw [List.countP_cons_of_neg (by simp [he])] at hquiet
    exact ih hquiet
  | performed => simp [isDispatch] at hquiet

theorem leaves_quiet (w : World) (hquiet : t.countP isDispatch = 0) : Leaves deps Fine w t w := by
  induction t with
  | nil => exact .here w
  | cons e t ih =>
    cases he : isDispatch e with
    | false =>
      rw [List.countP_cons_of_neg (by simp [he])] at hquiet
      exact .other he (ih hquiet)
    | true =>
      rw [List.countP_cons_of_pos he] at hquiet
      cases hquiet

/-- With one dispatch, a connection leaves what the dispatch does. -/
theorem Leaves.of_split (h : Leaves deps Fine w (pre ++ ⟨.dispatch peer req, resp⟩ :: post) w')
    (hpre : pre.countP isDispatch = 0) (hpost : post.countP isDispatch = 0) :
    ∃ calls, Exec (settledSem deps) (dispatch deps peer req) w calls (.ok resp) w' ∧
      Fine req calls (.ok resp) := by
  induction pre with
  | nil =>
    cases h with
    | other he _ => cases he
    | performed hexec hfine hrest =>
      obtain rfl := hrest.of_quiet hpost
      exact ⟨_, hexec, hfine⟩
  | cons e pre ih =>
    cases h with
    | other he hrest =>
      rw [List.countP_cons_of_neg (by simp [he])] at hpre
      exact ih hrest hpre
    | performed => simp [isDispatch] at hpre

theorem leaves_split {calls : List DaemonEvent}
    (hexec : Exec (settledSem deps) (dispatch deps peer req) w calls (.ok resp) w')
    (hfine : Fine req calls (.ok resp)) (hpre : pre.countP isDispatch = 0)
    (hpost : post.countP isDispatch = 0) :
    Leaves deps Fine w (pre ++ ⟨.dispatch peer req, resp⟩ :: post) w' := by
  induction pre with
  | nil => exact .performed hexec hfine (leaves_quiet w' hpost)
  | cons e pre ih =>
    cases he : isDispatch e with
    | false =>
      rw [List.countP_cons_of_neg (by simp [he])] at hpre
      exact .other he (ih hpre)
    | true =>
      rw [List.countP_cons_of_pos he] at hpre
      cases hpre

/-! ## Exchanges -/

/-- The value that the caller of a client has been given. -/
def given : Prog clientSig String Response → Option Response
  | .halt (.ok resp) => (finish (.ok resp)).toOption
  | _ => none

theorem given_eq_some {p : Prog clientSig String Response} {value : Response}
    (h : given p = some value) : ∃ resp, p = .halt (.ok resp) ∧ finish (.ok resp) = .ok value := by
  cases p with
  | call o k => cases h
  | halt out =>
    cases out with
    | ok resp =>
      refine ⟨resp, rfl, ?_⟩
      simp only [given] at h
      cases hfinish : finish (.ok resp) with
      | error e =>
        rw [hfinish] at h
        cases h
      | ok value' =>
        rw [hfinish] at h
        rw [Option.some.inj h]
    | err e => cases h
    | panic => cases h

/-- An exchange as it looks from the outside. -/
structure Talk where
  sys : PeerLookup
  version : UInt16
  req : Request
  value : Option Response

section
variable (deps : DaemonDeps) (Fine : Request → List DaemonEvent → Outcome String Response → Prop)
  (client : Ctl.Client.Codec) (codec : Codec)

/-- Each connection gets as far as it gets, over a wire that may fail anywhere. -/
inductive Talks : World → List Talk → World → Prop
  | none (w : World) : Talks w [] w
  | next {w w₁ w' : World} {sys version req c rest cap answers} :
      Reach clientPort (controlPort (resolvePeer sys) answers) True cap
        (exchange client version req) (handleConn codec) c →
      Leaves deps Fine w c.right.trace w₁ → Talks w₁ rest w' →
      Talks w (⟨sys, version, req, given c.left.prog⟩ :: rest) w'

/-- The same in single steps: a request is performed, once, for one that may ask, or it is not. -/
inductive Performs : World → List Talk → World → Prop
  | none (w : World) : Performs w [] w
  | skipped {w w' : World} {talk rest} : talk.value = none → Performs w rest w' →
      Performs w (talk :: rest) w'
  | performed {w w₁ w' : World} {talk : Talk} {peer resp calls rest} :
      talk.version = protocolVersion → Entitled talk.sys peer →
      Exec (settledSem deps) (dispatch deps peer talk.req) w calls (.ok resp) w₁ →
      Fine talk.req calls (.ok resp) → (∀ value, talk.value = some value → value = resp) →
      Performs w₁ rest w' → Performs w (talk :: rest) w'

end

section
variable {client : Ctl.Client.Codec} {codec : Codec} {sys : PeerLookup} {version : UInt16} {cap : ℕ}
  {answers : PeerIdentity → Request → Response → Prop} {talks rest : List Talk}
  {c : Duplex.Config clientSig controlSig String String Response Unit UInt8}

/-- One exchange is one step. -/
theorem performs_exchange (hreq : Inverts client.encode codec.decode)
    (hresp : Inverts codec.encode client.decode)
    (h : Reach clientPort (controlPort (resolvePeer sys) answers) True cap
      (exchange client version req) (handleConn codec) c)
    (hleaves : Leaves deps Fine w c.right.trace w₁) (hrest : Performs deps Fine w₁ rest w') :
    Performs deps Fine w (⟨sys, version, req, given c.left.prog⟩ :: rest) w' := by
  have hconducted := reach_conducts hreq h
  have htold {value : Response} (hvalue : given c.left.prog = some value) :
      ∃ peer pre post, c.right.trace = pre ++ ⟨.dispatch peer req, value⟩ :: post := by
    obtain ⟨resp, hdone, hfinish⟩ := given_eq_some hvalue
    obtain ⟨peer, pre, post, -, htrace⟩ := (reach_told hreq hresp h hdone).performed hfinish
    exact ⟨peer, pre, post, htrace⟩
  by_cases hquiet : c.right.trace.countP isDispatch = 0
  · obtain rfl := hleaves.of_quiet hquiet
    refine .skipped ?_ hrest
    by_contra hsome
    obtain ⟨value, hvalue⟩ := Option.ne_none_iff_exists'.mp hsome
    obtain ⟨peer, pre, post, htrace⟩ := htold hvalue
    simp [htrace, isDispatch] at hquiet
  · obtain ⟨⟨o, resp⟩, hmem, hdispatch⟩ := List.countP_pos_iff.mp (Nat.pos_of_ne_zero hquiet)
    cases o with
    | dispatch peer req' =>
      obtain ⟨pre, post, htrace⟩ := List.append_of_mem hmem
      rw [htrace] at hconducted hleaves
      obtain ⟨rfl, hversion, hentitled, -, hpre, hpost⟩ := hconducted.dispatched
      obtain ⟨calls, hexec, hfine⟩ := hleaves.of_split hpre hpost
      refine .performed hversion hentitled hexec hfine (fun value hvalue => ?_) hrest
      obtain ⟨peer', pre', post', htrace'⟩ := htold hvalue
      obtain ⟨-, hevent, -⟩ := split_unique (htrace'.symm.trans htrace) rfl hpre hpost
      cases hevent
      rfl
    | _ => cases hdispatch

theorem Performs.reached {idleTimeoutSecs : Option UInt32} (h : Performs deps Fine w talks w')
    (hw : ReachedBy deps Fine idleTimeoutSecs w) : ReachedBy deps Fine idleTimeoutSecs w' := by
  induction h with
  | none => exact hw
  | skipped _ _ ih => exact ih hw
  | performed _ _ hexec hfine _ _ ih => exact ih (.served _ _ hw hexec hfine)

/-- However the connections fail, the daemon has performed some of the requests, in order, each
once and for a peer that may ask, among them every one whose client was given a value. -/
theorem talks_perform (idleTimeoutSecs : Option UInt32) (hreq : Inverts client.encode codec.decode)
    (hresp : Inverts codec.encode client.decode) (h : Talks deps Fine client codec w talks w') :
    Performs deps Fine w talks w' ∧
      (ReachedBy deps Fine idleTimeoutSecs w → ReachedBy deps Fine idleTimeoutSecs w') := by
  have hperforms : Performs deps Fine w talks w' := by
    induction h with
    | none w => exact .none w
    | next hreach hleaves _ ih => exact performs_exchange hreq hresp hreach hleaves ih
  exact ⟨hperforms, hperforms.reached⟩

end

/-! ## A credential that is added -/

theorem exec_addCred (dto : CredInputDto) (peer : PeerIdentity) (hpersist : settledSem deps w
    (.persist (.addCred dto.name dto.backendUser dto.password)) (.ok ()) w') :
    ∃ calls, Exec (settledSem deps) (dispatch deps peer (.addCred dto)) w calls (.ok .ok) w' ∧
      Reloads (.addCred dto) calls (.ok .ok) := by
  let event := adminEvent peer "add_cred" dto.name .allow none
  have hemit : Exec (settledSem deps) ((ask (.emit event)).bind fun _ => pure Response.ok) w'
      [⟨.emit event, ()⟩] (.ok .ok) w' := exec_emit event .ok w'
  refine ⟨_, .call hpersist hemit, fun e he => ?_⟩
  rcases List.mem_cons.mp he with rfl | he
  · rfl
  · obtain rfl := List.mem_singleton.mp he
    rfl

def addedConfig : Config :=
  { sampleConfig with credentials := sampleConfig.credentials.insert "d" ⟨"u", "p"⟩ }

theorem talks_perform_sample : ∃ w w' : World,
    Performs (sampleDaemon [sampleConfig, addedConfig]) Reloads w
      [⟨sampleLookup, protocolVersion, .addCred sampleCred, some .ok⟩] w' ∧
    ReachedBy (sampleDaemon [sampleConfig, addedConfig]) Reloads none w' := by
  have hschema : ∀ cfg ∈ [sampleConfig, addedConfig], cfg.schemaVersion = 2 := by
    simp [sampleConfig, addedConfig]
    rfl
  have hreached := sample_reached List.mem_cons_self hschema Reloads
  have hrun : ((Mutate.Change.addCred "d" "u" "p").run Store.sampleMutateDeps).exec sampleConfig =
      (.ok (), addedConfig) := by rfl
  obtain ⟨s, hpersist, -⟩ := exec_persist (Store.listedSeals_lawful hschema)
    (sampleServing_stored List.mem_cons_self hschema) hrun (by decide)
    (Store.listedSeals_seals (by simp) _)
  obtain ⟨c, hreach, hout⟩ := sample_finished
  obtain ⟨peer, pre, post, -, htrace⟩ :=
    (reach_told inverts_sampleRequest inverts_sampleResponse hreach hout).performed rfl
  have hconducted := reach_conducts inverts_sampleRequest hreach
  rw [htrace] at hconducted
  obtain ⟨-, -, -, -, hpre, hpost⟩ := hconducted.dispatched
  obtain ⟨calls, hexec, hfine⟩ := exec_addCred sampleCred peer hpersist
  have hleaves := leaves_split hexec hfine hpre hpost
  rw [← htrace] at hleaves
  have hgiven : given c.left.prog = some .ok := by
    rw [hout]
    rfl
  have h := talks_perform none inverts_sampleRequest inverts_sampleResponse
    (.next hreach hleaves (.none _))
  rw [hgiven] at h
  exact ⟨_, _, h.1, h.2 hreached⟩

end MiddleWhere.Daemon

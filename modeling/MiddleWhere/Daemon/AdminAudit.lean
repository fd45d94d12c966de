import MiddleWhere.Daemon.Handlers

/-!
# Every request is audited once

Whatever the daemon's state and whatever the steps of a handler answer, the handler ends with
a response and emits one event, which names the request and says truly whether it was served.
Two ways out are silent on purpose: the answer to a second preamble, and a successful read of
the audit log itself.
-/

namespace MiddleWhere.Daemon
open Prog

variable {α β : Type}

def events (t : List DaemonEvent) : List AdminEvent :=
  t.filterMap fun
    | ⟨.emit event, _⟩ => some event
    | _ => none

theorem events_append (t t' : List DaemonEvent) : events (t ++ t') = events t ++ events t' :=
  List.filterMap_append

/-- Every run of `p`, whatever its operations answer, emits events and ends as `Q` says. -/
def Says (p : DaemonProg α) (Q : List AdminEvent → Outcome String α → Prop) : Prop :=
  wp (Sem.free daemonSig) p (fun t out _ => Q (events t) out) ()

/-- Emits nothing and does not panic. -/
def Silent (p : DaemonProg α) : Prop := Says p fun evs out => evs = [] ∧ out ≠ .panic

/-- Emits nothing and returns a value. -/
def Total (p : DaemonProg α) : Prop := Says p fun evs out => evs = [] ∧ ∃ a, out = .ok a

theorem Total.silent {p : DaemonProg α} (h : Total p) : Silent p := by
  refine wp_mono h fun t out _ hq => ⟨hq.1, ?_⟩
  obtain ⟨a, rfl⟩ := hq.2
  exact nofun

theorem total_pure (a : α) : Total (.halt (.ok a)) := wp_halt.mpr ⟨rfl, a, rfl⟩

theorem silent_fail (e : String) : Silent (fail e : DaemonProg α) := wp_halt.mpr ⟨rfl, nofun⟩

theorem silent_ofExcept (x : Except String α) : Silent (ofExcept x) := by
  cases x with
  | ok a => exact (total_pure a).silent
  | error e => exact silent_fail e

def DaemonOp.quiet : DaemonOp → Bool
  | .emit _ => false
  | _ => true

theorem total_ask {o : DaemonOp} (ho : o.quiet = true) : Total (ask o) := by
  refine wp_call.mpr fun r _ _ => wp_halt.mpr ⟨?_, r, rfl⟩
  cases o with
  | emit event => cases ho
  | _ => rfl

theorem silent_ask {o : DaemonOp} (ho : o.quiet = true) : Silent (ask o) := (total_ask ho).silent

/-- A part that emits nothing and returns, and then the rest. -/
theorem Total.says_bind {p : DaemonProg α} {f : α → DaemonProg β}
    {Q : List AdminEvent → Outcome String β → Prop} (hp : Total p) (hf : ∀ a, Says (f a) Q) :
    Says (p.bind f) Q := by
  refine wp_bind.mpr (wp_mono hp ?_)
  rintro t out _ ⟨hevents, a, rfl⟩
  refine wp_mono (hf a) fun t' out' _ hq => ?_
  have hsame : events (t ++ t') = events t' := by rw [events_append, hevents, List.nil_append]
  simpa only [hsame] using hq

theorem says_ask_bind {o : DaemonOp} {f : o.Res → DaemonProg β}
    {Q : List AdminEvent → Outcome String β → Prop} (ho : o.quiet = true)
    (hf : ∀ a, Says (f a) Q) : Says ((ask o).bind f) Q :=
  (total_ask ho).says_bind hf

theorem silent_bind {p : DaemonProg α} {f : α → DaemonProg β} (hp : Silent p)
    (hf : ∀ a, Silent (f a)) : Silent (p.bind f) := by
  refine wp_bind.mpr (wp_mono hp ?_)
  intro t out _ hq
  obtain ⟨hevents, hout⟩ := hq
  cases out with
  | ok a =>
    refine wp_mono (hf a) fun t' out' _ hq' => ⟨?_, hq'.2⟩
    rw [events_append, hevents, hq'.1, List.nil_append]
  | err e => exact ⟨hevents, nofun⟩
  | panic => exact absurd rfl hout

theorem Silent.attempt {p : DaemonProg α} (hp : Silent p) :
    Total (p.attempt : DaemonProg (Except String α)) := by
  refine wp_attempt.mpr (wp_mono hp ?_)
  intro t out _ hq
  obtain ⟨hevents, hout⟩ := hq
  cases out with
  | ok a => exact ⟨hevents, .ok a, rfl⟩
  | err e => exact ⟨hevents, .error e, rfl⟩
  | panic => exact absurd rfl hout

theorem silent_orContext (context : String) (r : Except String α) : Silent (orContext context r) :=
  silent_ofExcept _

/-! ## The live table emits nothing -/

section
variable (deps : DaemonDeps)

theorem openBastion_total (fresh : Bool) (name : String) (bastion : Bastion) :
    Total (openBastion deps fresh name bastion) := by
  cases fresh with
  | true => exact total_ask rfl
  | false => exact total_ask rfl

theorem openTunnel_silent (fresh : Bool) (name : String) (env : Env) (cfg : Config)
    (opts : BackendOpts) : Silent (openTunnel deps fresh name env cfg opts) := by
  unfold openTunnel
  cases env.bastion with
  | none => exact (total_pure _).silent
  | some bastionName =>
    dsimp only
    cases cfg.bastions[bastionName]? with
    | none => exact silent_fail _
    | some bastion =>
      apply silent_bind (openBastion_total deps fresh bastionName bastion).silent
      intro opened
      apply silent_bind (silent_orContext _ _)
      intro session
      refine silent_bind (silent_ask rfl) fun answer => ?_
      apply silent_bind (silent_orContext _ _)
      exact fun _ => (total_pure _).silent

theorem establishBackend_silent (fresh : Bool) (name : String) (env : Env) (cfg : Config) :
    Silent (establishBackend deps fresh name env cfg) := by
  unfold establishBackend
  cases cfg.credentials[env.credential]? with
  | none => exact silent_fail _
  | some cred =>
    apply silent_bind (openTunnel_silent deps fresh name env cfg _)
    intro tunnel
    refine silent_bind (silent_ask rfl) fun answer => ?_
    apply silent_bind (silent_orContext _ _)
    exact fun _ => (total_pure _).silent

theorem buildEnvRuntime_silent (name : String) (env : Env) (cfg : Config) :
    Silent (buildEnvRuntime deps name env cfg) := by
  apply silent_bind (establishBackend_silent deps false name env cfg)
  intro built
  apply silent_bind (silent_orContext _ _)
  exact fun _ => (total_pure _).silent

theorem serveRuntime_silent (name : String) (runtime : EnvRuntime) :
    Silent (serveRuntime name runtime) := by
  refine silent_bind (silent_ask rfl) fun answer => ?_
  apply silent_bind (silent_orContext _ _)
  intro listener
  exact silent_bind (silent_ask rfl) fun loop => silent_ask rfl

theorem applyAddEnv_silent (cfg : Config) (env : Env) (name : String) :
    Silent (applyAddEnv deps cfg env name) :=
  silent_bind (buildEnvRuntime_silent deps name env cfg) fun rt => serveRuntime_silent name rt

theorem applyRmEnv_total (name : String) : Total (applyRmEnv name) := by
  refine says_ask_bind rfl fun removed => ?_
  cases removed with
  | some loop => exact total_ask rfl
  | none => exact total_pure ()

theorem swapRuntime_silent (name : String) (mutate : EnvRuntime → EnvRuntime) :
    Silent (swapRuntime name mutate) := by
  refine silent_bind (silent_ask rfl) fun current => ?_
  cases current with
  | none => exact silent_fail _
  | some runtime => exact silent_bind (silent_ask rfl) fun _ => (total_pure ()).silent

theorem applyRebuildBackend_silent (cfg : Config) (env : Env) (name : String) :
    Silent (applyRebuildBackend deps cfg env name) := by
  apply silent_bind (buildEnvRuntime_silent deps name env cfg)
  intro runtime
  refine silent_bind (silent_ask rfl) fun published => ?_
  cases published with
  | true => exact (total_pure ()).silent
  | false => exact silent_fail _

theorem repinEnvs_total (cfg : Config) (names : List String) : Total (repinEnvs deps cfg names) := by
  induction names with
  | nil => exact total_pure []
  | cons name rest ih =>
    unfold repinEnvs
    cases cfg.envs[name]? with
    | none => exact ih
    | some env =>
      refine says_ask_bind rfl fun live => ?_
      cases live with
      | false => exact ih
      | true =>
        refine (applyRebuildBackend_silent deps cfg env name).attempt.says_bind fun rebuilt => ?_
        cases rebuilt with
        | ok _ => exact ih
        | error e =>
          refine (applyRmEnv_total name).says_bind fun _ => ?_
          exact ih.says_bind fun stopped => total_pure _

theorem rebuildEnvs_total (cfg : Config) (names : List String) :
    Total (rebuildEnvs deps cfg names) := by
  induction names with
  | nil => exact total_pure none
  | cons name rest ih =>
    unfold rebuildEnvs
    cases cfg.envs[name]? with
    | none => exact ih
    | some env =>
      refine (applyRebuildBackend_silent deps cfg env name).attempt.says_bind fun rebuilt => ?_
      cases rebuilt with
      | ok _ => exact ih
      | error e => exact total_pure _

theorem addEnvs_total (cfg : Config) (names : List String) : Total (addEnvs deps cfg names) := by
  induction names with
  | nil => exact total_pure none
  | cons name rest ih =>
    unfold addEnvs
    cases cfg.envs[name]? with
    | none => exact ih
    | some env =>
      refine (applyAddEnv_silent deps cfg env name).attempt.says_bind fun added => ?_
      cases added with
      | ok _ => exact ih
      | error e => exact total_pure _

theorem probeOneEnv_total (cfg : Config) (name : String) : Total (probeOneEnv deps cfg name) := by
  unfold probeOneEnv
  cases cfg.envs[name]? with
  | none => exact total_pure _
  | some env =>
    by_cases hengine : env.engine = .msSql
    · simp only [if_pos hengine]
      exact total_pure _
    · simp only [if_neg hengine]
      have hprobe : Silent (probeBackend deps name env cfg) := by
        apply silent_bind (establishBackend_silent deps true name env cfg)
        intro built
        exact silent_bind (silent_ask rfl) fun answer => silent_ofExcept answer
      refine hprobe.attempt.says_bind fun result => ?_
      cases result with
      | ok _ => exact total_pure _
      | error e => exact total_pure _

theorem probeEnvs_total (cfg : Config) (names : List String) :
    Total (probeEnvs deps cfg names) := by
  induction names with
  | nil => exact total_pure []
  | cons name rest ih =>
    refine (probeOneEnv_total deps cfg name).says_bind fun result => ?_
    exact ih.says_bind fun results => total_pure _

end

/-! ## One event for each request -/

/-- The responses that report a request as served. -/
def Response.Clean : Response → Prop
  | .ok | .rows _ | .probeResults _ => True
  | .token dto => dto.note = none
  | _ => False

inductive RequestKind
  | hello
  | addBastion | rmBastion | setFingerprint
  | addCred | rotateCred | rmCred
  | addEnv | rmEnv | grant | setPolicy | import_
  | listBastions | listCreds | listEnvs | auditTail | probe
deriving DecidableEq

def Request.kind : Request → RequestKind
  | .hello _ => .hello
  | .addBastion _ => .addBastion
  | .rmBastion _ => .rmBastion
  | .setFingerprint _ _ => .setFingerprint
  | .addCred _ => .addCred
  | .rotateCred _ _ => .rotateCred
  | .rmCred _ => .rmCred
  | .addEnv _ => .addEnv
  | .rmEnv _ => .rmEnv
  | .grant _ => .grant
  | .setPolicy _ _ _ => .setPolicy
  | .import_ _ => .import_
  | .listBastions => .listBastions
  | .listCreds => .listCreds
  | .listEnvs => .listEnvs
  | .auditTail _ => .auditTail
  | .probe _ _ => .probe

/-- A second preamble has no action: it is never audited. -/
def RequestKind.action : RequestKind → String
  | .hello => ""
  | .addBastion => "add_bastion"
  | .rmBastion => "rm_bastion"
  | .setFingerprint => "set_fingerprint"
  | .addCred => "add_cred"
  | .rotateCred => "rotate_cred"
  | .rmCred => "rm_cred"
  | .addEnv => "add_env"
  | .rmEnv => "rm_env"
  | .grant => "grant"
  | .setPolicy => "set_policy"
  | .import_ => "import"
  | .listBastions => "list_bastions"
  | .listCreds => "list_creds"
  | .listEnvs => "list_envs"
  | .auditTail => "audit_tail"
  | .probe => "probe"

theorem action_injective : Function.Injective RequestKind.action := by
  intro a b h
  cases a <;> cases b <;> first | rfl | exact absurd h (by decide)

/-- The two ways out that leave no trace. -/
def Unaudited : Request → Response → Prop
  | .hello _, _ => True
  | .auditTail _, .auditLines _ => True
  | _, _ => False

/-- One event of `peer`, whose decision says whether `resp` reports success. -/
def AuditedOnce (peer : PeerIdentity) (action : String) (resp : Response)
    (evs : List AdminEvent) : Prop :=
  ∃ target decision error, evs = [adminEvent peer action target decision error] ∧
    (decision = .allow ↔ resp.Clean)

def Reports (peer : PeerIdentity) (action : String) (p : DaemonProg Response) : Prop :=
  Says p fun evs out => ∃ resp, out = .ok resp ∧ AuditedOnce peer action resp evs

section
variable (deps : DaemonDeps) {peer : PeerIdentity} {action : String}

theorem reports_emit {target : String} {decision : AuditDecision} {error : Option String}
    {resp : Response} (h : decision = .allow ↔ resp.Clean) :
    Reports peer action ((emit peer action target decision error).bind fun _ =>
      .halt (.ok resp)) :=
  wp_call.mpr fun _ _ _ => wp_halt.mpr ⟨resp, rfl, target, decision, error, rfl, h⟩

theorem reports_allowed {target : String} {resp : Response} (h : resp.Clean) :
    Reports peer action (allowed peer action target resp) :=
  reports_emit (by simp [h])

theorem reports_failMsg {target msg : String} : Reports peer action (failMsg peer action target msg) :=
  reports_emit (by simp [Response.Clean])

theorem reports_tokenButNotLive {target e : String} {out : Mutate.NewEnvOutput} :
    Reports peer action (tokenButNotLive peer action target out e) :=
  reports_emit (by simp [Response.Clean])

/-- What runs after the event emits nothing and returns the same response. -/
theorem Reports.then_quiet {p : DaemonProg Response} {f : Response → DaemonProg Response}
    (hp : Reports peer action p)
    (hf : ∀ resp, Says (f resp) fun evs out => evs = [] ∧ out = .ok resp) :
    Reports peer action (p.bind f) := by
  refine wp_bind.mpr (wp_mono hp ?_)
  rintro t out _ ⟨resp, rfl, haudit⟩
  refine wp_mono (hf resp) ?_
  rintro t' out' _ ⟨hevents, rfl⟩
  refine ⟨resp, rfl, ?_⟩
  rwa [events_append, hevents, List.append_nil]

theorem simpleMutation_reports {target : String} {change : Mutate.Change} :
    Reports peer action (simpleMutation deps peer action target change) := by
  refine says_ask_bind rfl fun persisted => ?_
  cases persisted with
  | ok _ => exact reports_allowed trivial
  | error e => exact reports_failMsg

theorem rmBastionReq_reports (name : String) :
    Reports peer "rm_bastion" (rmBastionReq deps peer name) := by
  apply (simpleMutation_reports deps).then_quiet
  intro resp
  cases resp with
  | ok => exact wp_call.mpr fun _ _ _ => wp_halt.mpr ⟨rfl, rfl⟩
  | _ => exact wp_halt.mpr ⟨rfl, rfl⟩

theorem setFingerprintReq_reports (bastion : String) (fingerprint : HostKeyFingerprint) :
    Reports peer "set_fingerprint" (setFingerprintReq deps peer bastion fingerprint) := by
  refine says_ask_bind rfl fun persisted => ?_
  cases persisted with
  | error e => exact reports_failMsg
  | ok _ =>
    refine says_ask_bind rfl fun evicted => ?_
    refine says_ask_bind rfl fun loaded => ?_
    cases loaded with
    | error e => exact reports_failMsg
    | ok cfg =>
      refine (repinEnvs_total deps cfg _).says_bind fun stopped => ?_
      cases stopped with
      | nil => exact reports_allowed trivial
      | cons name rest => exact reports_failMsg

theorem rotateCredReq_reports (name password : String) :
    Reports peer "rotate_cred" (rotateCredReq deps peer name password) := by
  refine says_ask_bind rfl fun persisted => ?_
  cases persisted with
  | error e => exact reports_failMsg
  | ok _ =>
    refine says_ask_bind rfl fun loaded => ?_
    cases loaded with
    | error e => exact reports_failMsg
    | ok cfg =>
      refine (rebuildEnvs_total deps cfg _).says_bind fun failed => ?_
      cases failed with
      | none => exact reports_allowed trivial
      | some failure => exact reports_failMsg

theorem addEnvReq_reports (dto : EnvInputDto) :
    Reports peer "add_env" (addEnvReq deps peer dto) := by
  refine says_ask_bind rfl fun raw => ?_
  refine says_ask_bind rfl fun persisted => ?_
  cases persisted with
  | error e => exact reports_failMsg
  | ok out =>
    refine says_ask_bind rfl fun loaded => ?_
    cases loaded with
    | error e => exact reports_failMsg
    | ok cfg =>
      dsimp only
      cases cfg.envs[dto.name]? with
      | none => exact reports_failMsg
      | some env =>
        refine (applyAddEnv_silent deps cfg env dto.name).attempt.says_bind fun added => ?_
        cases added with
        | error e => exact reports_tokenButNotLive
        | ok _ => exact reports_allowed rfl

theorem rmEnvReq_reports (name : String) : Reports peer "rm_env" (rmEnvReq deps peer name) := by
  refine says_ask_bind rfl fun persisted => ?_
  cases persisted with
  | error e => exact reports_failMsg
  | ok _ => exact (applyRmEnv_total name).says_bind fun _ => reports_allowed trivial

theorem grantReq_reports (env : String) : Reports peer "grant" (grantReq deps peer env) := by
  refine says_ask_bind rfl fun raw => ?_
  refine says_ask_bind rfl fun persisted => ?_
  cases persisted with
  | error e => exact reports_failMsg
  | ok out =>
    refine says_ask_bind rfl fun loaded => ?_
    cases loaded with
    | error e => exact reports_failMsg
    | ok cfg =>
      dsimp only
      cases cfg.envs[env]? with
      | none => exact reports_failMsg
      | some e =>
        refine (swapRuntime_silent env _).attempt.says_bind fun swapped => ?_
        cases swapped with
        | error err => exact reports_tokenButNotLive
        | ok _ => exact reports_allowed rfl

theorem setPolicyReq_reports (env : String) (target : Mutate.PolicyTarget)
    (confirmUnsafe : Bool) :
    Reports peer "set_policy" (setPolicyReq deps peer env target confirmUnsafe) := by
  unfold setPolicyReq
  by_cases hunsafe : target = .readWrite ∧ !confirmUnsafe
  · rw [if_pos hunsafe]
    exact reports_emit (by simp [Response.Clean])
  · rw [if_neg hunsafe]
    refine says_ask_bind rfl fun persisted => ?_
    cases persisted with
    | error e => exact reports_failMsg
    | ok _ =>
      refine says_ask_bind rfl fun loaded => ?_
      cases loaded with
      | error e => exact reports_failMsg
      | ok cfg =>
        dsimp only
        cases cfg.envs[env]? with
        | none => exact reports_failMsg
        | some e =>
          refine (swapRuntime_silent env _).attempt.says_bind fun swapped => ?_
          cases swapped with
          | error err => exact reports_failMsg
          | ok _ => exact reports_allowed trivial

theorem importReq_reports (fragment : Config) :
    Reports peer "import" (importReq deps peer fragment) := by
  refine says_ask_bind rfl fun persisted => ?_
  cases persisted with
  | error e => exact reports_failMsg
  | ok _ =>
    refine says_ask_bind rfl fun loaded => ?_
    cases loaded with
    | error e => exact reports_failMsg
    | ok cfg =>
      refine (addEnvs_total deps cfg _).says_bind fun failed => ?_
      cases failed with
      | none => exact reports_allowed trivial
      | some failure => exact reports_failMsg

theorem listRows_reports (rows : Config → List String) :
    Reports peer action (listRows deps peer action rows) := by
  refine says_ask_bind rfl fun loaded => ?_
  cases loaded with
  | error e => exact reports_failMsg
  | ok cfg => exact reports_allowed trivial

theorem probeReq_reports (env : Option String) (all : Bool) :
    Reports peer "probe" (probeReq deps peer env all) := by
  unfold probeReq
  generalize (if all then some Probe.all else env.map Probe.one) = which
  cases which with
  | none => exact reports_failMsg
  | some which =>
    refine says_ask_bind rfl fun loaded => ?_
    cases loaded with
    | error e => exact reports_failMsg
    | ok cfg =>
      exact (probeEnvs_total deps cfg _).says_bind fun results => reports_allowed trivial

/-- Reading the audit log is audited when it fails, and not when it succeeds. -/
theorem auditTail_spec (n : ℕ) : Says (auditTail peer n) fun evs out =>
    (evs = [] ∧ ∃ lines, out = .ok (.auditLines lines)) ∨
      ∃ msg, out = .ok (.error msg) ∧ AuditedOnce peer "audit_tail" (.error msg) evs := by
  have hquiet (lines : List String) : Says (.halt (.ok (.auditLines lines)) : DaemonProg Response)
      fun evs out => (evs = [] ∧ ∃ lines, out = .ok (.auditLines lines)) ∨
        ∃ msg, out = .ok (.error msg) ∧ AuditedOnce peer "audit_tail" (.error msg) evs :=
    wp_halt.mpr (Or.inl ⟨rfl, lines, rfl⟩)
  have hfail (target msg : String) : Says (failMsg peer "audit_tail" target msg)
      fun evs out => (evs = [] ∧ ∃ lines, out = .ok (.auditLines lines)) ∨
        ∃ msg, out = .ok (.error msg) ∧ AuditedOnce peer "audit_tail" (.error msg) evs :=
    wp_call.mpr fun _ _ _ => wp_halt.mpr
      (Or.inr ⟨msg, rfl, target, .error, some msg, rfl, by simp [Response.Clean]⟩)
  refine says_ask_bind rfl fun found => ?_
  cases found with
  | false => exact hquiet []
  | true =>
    refine says_ask_bind rfl fun entries => ?_
    cases entries with
    | error e => exact hfail _ _
    | ok entries =>
      dsimp only
      cases ((entries.filter (·.startsWith "audit.jsonl")).mergeSort).getLast? with
      | none => exact hquiet []
      | some latest =>
        refine says_ask_bind rfl fun body => ?_
        cases body with
        | error e => exact hfail _ _
        | ok body => exact hquiet _

theorem dispatch_of_reports {req : Request}
    (h : Reports peer req.kind.action (dispatch deps peer req))
    (hreq : ∀ resp, ¬ Unaudited req resp) :
    wp (Sem.free daemonSig) (dispatch deps peer req) (fun t out _ => ∃ resp, out = .ok resp ∧
      (Unaudited req resp → events t = []) ∧
      (¬ Unaudited req resp → AuditedOnce peer req.kind.action resp (events t))) () := by
  refine wp_mono h ?_
  rintro t out _ ⟨resp, rfl, haudit⟩
  exact ⟨resp, rfl, fun hu => absurd hu (hreq resp), fun _ => haudit⟩

end

/-- Every dispatch answers and is audited by one event, which says whether the response reports
success and names the kind of the request; only the two silent ways out emit none. -/
theorem dispatch_audited :
    Function.Injective RequestKind.action ∧
    ∀ (deps : DaemonDeps) (peer : PeerIdentity) (req : Request),
      wp (Sem.free daemonSig) (dispatch deps peer req) (fun t out _ => ∃ resp, out = .ok resp ∧
        (Unaudited req resp → events t = []) ∧
        (¬ Unaudited req resp → AuditedOnce peer req.kind.action resp (events t))) () := by
  refine ⟨action_injective, fun deps peer req => ?_⟩
  cases req with
  | hello version =>
    exact wp_halt.mpr ⟨_, rfl, fun _ => rfl, fun h => absurd trivial h⟩
  | addBastion dto => exact dispatch_of_reports deps (simpleMutation_reports deps) fun _ => not_false
  | rmBastion name => exact dispatch_of_reports deps (rmBastionReq_reports deps name) fun _ => not_false
  | setFingerprint bastion fingerprint =>
    exact dispatch_of_reports deps (setFingerprintReq_reports deps bastion fingerprint) fun _ => not_false
  | addCred dto => exact dispatch_of_reports deps (simpleMutation_reports deps) fun _ => not_false
  | rotateCred name password =>
    exact dispatch_of_reports deps (rotateCredReq_reports deps name password) fun _ => not_false
  | rmCred name => exact dispatch_of_reports deps (simpleMutation_reports deps) fun _ => not_false
  | addEnv dto => exact dispatch_of_reports deps (addEnvReq_reports deps dto) fun _ => not_false
  | rmEnv name => exact dispatch_of_reports deps (rmEnvReq_reports deps name) fun _ => not_false
  | grant env => exact dispatch_of_reports deps (grantReq_reports deps env) fun _ => not_false
  | setPolicy env target confirmUnsafe =>
    exact dispatch_of_reports deps (setPolicyReq_reports deps env target confirmUnsafe) fun _ => not_false
  | import_ fragment => exact dispatch_of_reports deps (importReq_reports deps fragment) fun _ => not_false
  | listBastions => exact dispatch_of_reports deps (listRows_reports deps _) fun _ => not_false
  | listCreds => exact dispatch_of_reports deps (listRows_reports deps _) fun _ => not_false
  | listEnvs => exact dispatch_of_reports deps (listRows_reports deps _) fun _ => not_false
  | probe env all => exact dispatch_of_reports deps (probeReq_reports deps env all) fun _ => not_false
  | auditTail n =>
    refine wp_mono (auditTail_spec n) ?_
    rintro t out _ (⟨hevents, lines, rfl⟩ | ⟨msg, rfl, haudit⟩)
    · exact ⟨_, rfl, fun _ => hevents, fun h => absurd trivial h⟩
    · exact ⟨_, rfl, fun h => absurd h not_false, fun _ => haudit⟩

end MiddleWhere.Daemon

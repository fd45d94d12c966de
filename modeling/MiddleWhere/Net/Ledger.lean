import MiddleWhere.Net.Router

/-!
# What a trace amounts to

The audit events that a trace emitted and the bytes that the client's socket took, with
what a written packet adds to them.
-/

namespace MiddleWhere.Net
open Prog

def emitted (t : List SessionEvent) : List AuditEvent :=
  t.filterMap fun
    | ⟨.emit event, _⟩ => some event
    | _ => none

def sent (t : List SessionEvent) : Bytes :=
  t.flatMap fun
    | ⟨.write bytes, .ok ()⟩ => bytes
    | _ => []

def Took : SessionEvent → Prop
  | ⟨.write _, r⟩ => r = .ok ()
  | ⟨.flush, r⟩ => r = .ok ()
  | _ => True

/-- The client's socket took all that was written to it. -/
def ClientTook (t : List SessionEvent) : Prop := ∀ e ∈ t, Took e

@[simp] theorem emitted_emit (event : AuditEvent) (r : Unit) (t : List SessionEvent) :
    emitted (⟨.emit event, r⟩ :: t) = event :: emitted t := rfl

@[simp] theorem sent_emit (event : AuditEvent) (r : Unit) (t : List SessionEvent) :
    sent (⟨.emit event, r⟩ :: t) = sent t := rfl

@[simp] theorem emitted_evaluate (sql : String) (r : Firewall.Decision) (t : List SessionEvent) :
    emitted (⟨.evaluate sql, r⟩ :: t) = emitted t := rfl

@[simp] theorem sent_evaluate (sql : String) (r : Firewall.Decision) (t : List SessionEvent) :
    sent (⟨.evaluate sql, r⟩ :: t) = sent t := rfl

@[simp] theorem emitted_poolGet (r : Except String ConnId) (t : List SessionEvent) :
    emitted (⟨.poolGet, r⟩ :: t) = emitted t := rfl

@[simp] theorem emitted_poolPut (conn : ConnId) (r : Unit) (t : List SessionEvent) :
    emitted (⟨.poolPut conn, r⟩ :: t) = emitted t := rfl

@[simp] theorem emitted_queryIter (conn : ConnId) (sql : String)
    (r : Except String (Option (List Column))) (t : List SessionEvent) :
    emitted (⟨.queryIter conn sql, r⟩ :: t) = emitted t := rfl

@[simp] theorem emitted_nil : emitted [] = [] := rfl

@[simp] theorem emitted_append (t t' : List SessionEvent) :
    emitted (t ++ t') = emitted t ++ emitted t' := List.filterMap_append

@[simp] theorem sent_append (t t' : List SessionEvent) : sent (t ++ t') = sent t ++ sent t' :=
  List.flatMap_append

@[simp] theorem clientTook_append {t t' : List SessionEvent} :
    ClientTook (t ++ t') ↔ ClientTook t ∧ ClientTook t' := List.forall_mem_append

@[simp] theorem clientTook_cons {e : SessionEvent} {t : List SessionEvent} :
    ClientTook (e :: t) ↔ Took e ∧ ClientTook t := List.forall_mem_cons

theorem emitted_of_passesOn {t : List SessionEvent} (h : ∀ e ∈ t, e.op.passesOn) :
    emitted t = [] := by
  apply List.filterMap_eq_nil_iff.mpr
  intro e he
  have hop := h e he
  obtain ⟨o, r⟩ := e
  cases o with
  | emit event => exact hop.elim
  | _ => rfl

theorem emitted_of_toClient {t : List SessionEvent} (h : ∀ e ∈ t, e.op.toClient) :
    emitted t = [] :=
  emitted_of_passesOn fun e he => (h e he).passesOn

/-! ## Packets -/

def packet (seq : SequenceCounter) (payload : Bytes) : Bytes :=
  packetHeader seq payload.length ++ payload

/-- A packet that fits is written whole unless the client's socket fails. -/
def SendsPacket {ε : Type} (seq : SequenceCounter) (payload : Bytes) (t : List SessionEvent)
    (out : Outcome ε SequenceCounter) : Prop :=
  sent t <+: packet seq payload ∧
    (ClientTook t → sent t = packet seq payload ∧ out = .ok (seq + 1))

variable {M : Sem sessionSig Unit}

theorem writePacket_sends {seq : SequenceCounter} {payload : Bytes}
    (hfit : payload.length < maxPayload) (s : Unit) :
    wp M (writePacket seq payload) (fun t out _ => SendsPacket seq payload t out) s := by
  unfold writePacket writeAll ask perform
  rw [if_neg (not_le.mpr hfit)]
  simp only [bind_eq, pure_eq, call_bind, halt_ok_bind]
  rw [wp_call]
  intro header s₁ _
  cases header with
  | error e =>
    simp only [Except.mapError, ofExcept_error, halt_err_bind, wp_halt]
    exact ⟨List.nil_prefix, by simp [Took]⟩
  | ok _ =>
    simp only [Except.mapError, Prog.ofExcept_ok, halt_ok_bind]
    rw [wp_call]
    intro body s₂ _
    cases body with
    | error e =>
      simp only [ofExcept_error, halt_err_bind, wp_halt]
      exact ⟨by simp [sent, packet], by simp [Took]⟩
    | ok _ =>
      simp only [Prog.ofExcept_ok, halt_ok_bind]
      rw [wp_call]
      intro flushed s₃ _
      cases flushed with
      | error e =>
        simp only [ofExcept_error, halt_err_bind, wp_halt]
        exact ⟨by simp [sent, packet], by simp [Took]⟩
      | ok _ =>
        simp only [Prog.ofExcept_ok, halt_ok_bind, wp_halt]
        exact ⟨by simp [sent, packet], fun _ => ⟨by simp [sent, packet], rfl⟩⟩

end MiddleWhere.Net

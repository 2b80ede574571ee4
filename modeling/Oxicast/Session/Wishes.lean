import Oxicast.Operation.Wish
import Oxicast.Session.Once

/-!
# Oxicast.Session.Wishes

What the device is asked for over the connections of a client.

Every message a write channel has accepted is a CONNECT, a CLOSE, a raw message or the
request of one call, and a device that reads the request learns what the call was made
for, with the ids the call had read, under the request id the call waits with
(`requests_understood`).
-/

namespace Oxicast.Session

open TransitionSystem Ns

variable {serde : SerdeJson} {cfg : ClientConfig} {s : Session} {msg : CastMessage} {r c : Nat}

/-- What a message of a queue means, and which call it comes from. -/
inductive Means (serde : SerdeJson) (s : Session) : Option Nat → CastMessage → Prop
  | connect (tid : String) : Means serde s none (connectMsg serde tid)
  | close (r : Nat) (h : (s.calls r).op = Operation.close serde) :
      Means serde s (some r) (closeMsg serde receiverId)
  | raw (r : Nat) (ns destination : String) (payload : Json)
      (h : (s.calls r).op = Operation.sendRaw serde ns destination payload ∨
        (s.calls r).op = Operation.sendRawNoReply serde ns destination payload) :
      Means serde s (some r) (s.message r)
  | wish (r : Nat) (call : Invocation) (payload : Json) (h : (s.calls r).op = call.operation serde)
      (hread : Wish.read call.channel payload =
        some (s.requestId r, call.wish (s.calls r).target)) :
      Means serde s (some r) (buildMessage call.channel senderId
        (if (s.calls r).op.reads = .nothing then receiverId else (s.calls r).target.transportId)
        (serde.toString payload))

/-- The message of a call of a method means what the method was called for. -/
theorem Method.means (h : Method serde (s.calls r).op) : Means serde s (some r) (s.message r) := by
  generalize hop : (s.calls r).op = op at h
  cases h with
  | typed htyped =>
      rcases htyped.invocation with hclose | ⟨call, hcall⟩
      · have hmsg : s.message r = closeMsg serde receiverId := by
          rw [message, hop, hclose]
          rfl
        rw [hmsg]
        exact .close r (hop.trans hclose)
      · obtain ⟨payload, hbuild, hread⟩ := wish_read serde call (s.requestId r) (s.calls r).target
        have hmsg : s.message r = buildMessage call.channel senderId
            (if (s.calls r).op.reads = .nothing then receiverId else (s.calls r).target.transportId)
            (serde.toString payload) := by
          rw [message, hop, hcall]
          exact hbuild
        rw [hmsg]
        exact .wish r call payload (hop.trans hcall) hread
  | raw ns destination payload => exact .raw r ns destination payload (.inl hop)
  | rawNoReply ns destination payload => exact .raw r ns destination payload (.inr hop)

/-- **The device is asked for what the users ask for**, once for each call whose request
a connection has accepted. -/
theorem requests_understood (h : (system serde cfg).Run (CallsMethods serde) (start cfg) s)
    (c : Nat) :
    ∃ senders : List (Option Nat), List.Forall₂ (Means serde s) senders (s.sent c) ∧
      senders.reduceOption.Nodup ∧
      ∀ r, r ∈ senders.reduceOption ↔ (s.calls r).acceptedOn = some c := by
  have honce := once_of_run h
  obtain ⟨senders, hsenders⟩ := honce.senders c
  refine ⟨senders, ?_, hsenders.once, hsenders.accepted⟩
  obtain ⟨hlength, hall⟩ := List.forall₂_iff_zip.1 hsenders.sent
  refine List.forall₂_iff_zip.2 ⟨hlength, fun {sender msg} hmem => ?_⟩
  have hfrom := hall hmem
  have hsender := (List.of_mem_zip hmem).1
  cases hfrom with
  | connect tid => exact .connect tid
  | request r =>
      have hacc := (hsenders.accepted r).1 (List.reduceOption_mem_iff.2 hsender)
      have hpast := honce.accepted r (hacc ▸ Option.some_ne_none c)
      have hmethod := (ofMethods_of_run h r).resolve_left fun hpc => by
        rw [hpc] at hpast
        exact hpast
      exact Method.means hmethod

set_option maxRecDepth 8000 in
/-- After a launch and a reconnect, the next connection carries two CONNECTs and the
request of the second call. -/
theorem requests_understood_reopened :
    ∃ s, (system launchSerde Lifecycle.autoCfg).exec (start Lifecycle.autoCfg)
        (launchActs ++ reopenActs ++ mediaStatusActs) = some s ∧ (s.sent 1).length = 3 ∧
      ∃ senders : List (Option Nat), List.Forall₂ (Means launchSerde s) senders (s.sent 1) ∧
        senders.reduceOption.Nodup ∧
        ∀ r, r ∈ senders.reduceOption ↔ (s.calls r).acceptedOn = some 1 := by
  have hrun : (system launchSerde Lifecycle.autoCfg).Run (CallsMethods launchSerde)
      (start Lifecycle.autoCfg) _ :=
    run_of_execIf_mem (p := fun _ _ => true) (launchActs ++ reopenActs ++ mediaStatusActs)
      (fun _ ha _ _ => callsMethods_reopened ha) rfl
  exact ⟨_, rfl, rfl, requests_understood hrun 1⟩

end Oxicast.Session

import Oxicast.Operation
import Oxicast.Serve.Registry
import Oxicast.Status.Echo

/-!
# Oxicast.Serve.Cast

A local file cast.

`serve_and_cast` starts a server of its own, registers the file and loads its URL.  The
server lives as long as somebody holds it: the call until `load_media` returns, then the
caller; with an error of the call, or its future, it is dropped.
-/

namespace Oxicast

/-! ## casts -/

/-- `MediaInfo::new`. -/
def MediaInfo.new (contentId contentType : String) : MediaInfo where
  contentId
  contentType
  streamType := .buffered
  duration := none
  metadata := none

/-- How far a call of `serve_and_cast` is. -/
inductive CastPc where
  | idle
  /-- the server is started; in `serve_file` -/
  | registering
  /-- in `load_media` -/
  | loading (url : String)
  /-- the caller has the server -/
  | playing (url : String)
  /-- the server is dropped: by the call with its error or its future, or by the caller -/
  | dropped

/-- A call of `serve_and_cast`: its arguments, and its own call of `serve_file`. -/
structure Cast where
  path : String
  contentType : String
  autoplay : Bool
  currentTime : F64
  call : Nat
  pc : CastPc

/-- The URL of a cast whose server runs. -/
def CastPc.url? : CastPc → Option String
  | .loading url | .playing url => some url
  | _ => none

/-- The `load_media` call of a cast. -/
def Cast.load (serde : SerdeJson) (cast : Cast) (url : String) : Operation :=
  .loadMedia serde (.new url cast.contentType) cast.autoplay cast.currentTime none

/-- File servers and the casts some of them belong to: the `k`-th cast starts the
`k`-th server. -/
structure Casting where
  serving : Serving
  casts : Nat → Cast

inductive CastingAct where
  /-- a step of any call of `serve_file` -/
  | serving (a : ServingAct)
  /-- the server is started, and `serve_file` called on it -/
  | start (k r : Nat) (path contentType : String) (found autoplay : Bool) (currentTime : F64)
  | served (k : Nat)
  /-- `load_media` returns `Ok` -/
  | loaded (k : Nat)
  /-- `load_media` returns an error, or the future is dropped -/
  | failed (k : Nat)
  /-- the caller drops the server it has been given -/
  | dropServer (k : Nat)

namespace Casting

/-- A cast goes on. -/
def goto (x : Casting) (k : Nat) (pc : CastPc) : Casting :=
  { x with casts := Function.update x.casts k { x.casts k with pc } }

def step (servers : Nat → FileServer) (x : Casting) : CastingAct → Option Casting
  | .serving a => (x.serving.step servers a).map fun serving => { x with serving }
  | .start k r path contentType found autoplay currentTime =>
      match (x.casts k).pc, (x.serving.calls r).pc with
      | .idle, .idle =>
          some
            { serving := x.serving.begin r k path contentType found
              casts := Function.update x.casts k
                ⟨path, contentType, autoplay, currentTime, r, .registering⟩ }
      | _, _ => none
  | .served k =>
      match (x.casts k).pc, (x.serving.calls (x.casts k).call).pc with
      | .registering, .returned (.ok url) => some (x.goto k (.loading url))
      | .registering, .returned (.error _) => some (x.goto k .dropped)
      | _, _ => none
  | .loaded k =>
      match (x.casts k).pc with
      | .loading url => some (x.goto k (.playing url))
      | _ => none
  | .failed k =>
      match (x.casts k).pc with
      | .loading _ => some (x.goto k .dropped)
      | _ => none
  | .dropServer k =>
      match (x.casts k).pc with
      | .playing _ => some (x.goto k .dropped)
      | _ => none

/-- All interleavings of casts and calls of `serve_file`. -/
def system (servers : Nat → FileServer) : TransitionSystem Casting CastingAct :=
  ⟨⟨.start, fun _ => ⟨"", "", false, ⟨0⟩, 0, .idle⟩⟩, step servers⟩

/-- The answer to a request on a new connection to the server of a cast; `none` also when
there is no server. -/
def get (routes : Routes) (disk : String → Except String OpenFile) (x : Casting) (k : Nat)
    (path : String) (rangeHeader : Option HeaderValue) : Option Response :=
  match (x.casts k).pc with
  | .idle | .dropped => none
  | _ => x.serving.get routes disk k path rangeHeader

/-! ## what a step of a cast does -/

variable {servers : Nat → FileServer} {x y : Casting} {a : CastingAct} {k : Nat}

/-- What a step does: a cast goes on only when its own call has returned. -/
inductive Step (servers : Nat → FileServer) (x : Casting) : Casting → Prop
  | serving {serving : Serving} (hstep : Serving.Step servers x.serving serving) :
      Step servers x { x with serving }
  | start {k r : Nat} {path contentType : String} {found autoplay : Bool} {currentTime : F64}
      (hcast : (x.casts k).pc = .idle) (hcall : (x.serving.calls r).pc = .idle) :
      Step servers x
        { serving := x.serving.begin r k path contentType found
          casts := Function.update x.casts k
            ⟨path, contentType, autoplay, currentTime, r, .registering⟩ }
  | served {k : Nat} {url : String} (hcast : (x.casts k).pc = .registering)
      (hcall : (x.serving.calls (x.casts k).call).pc = .returned (.ok url)) :
      Step servers x (x.goto k (.loading url))
  | loaded {k : Nat} {url : String} (hcast : (x.casts k).pc = .loading url) :
      Step servers x (x.goto k (.playing url))
  | dropped {k : Nat} (hcast : (x.casts k).pc ≠ .idle) : Step servers x (x.goto k .dropped)

theorem step_cases (h : (system servers).step x a = some y) :
    Step servers x y ∧ (Serving.system servers).Run TransitionSystem.Any x.serving y.serving := by
  cases a with
  | serving a =>
      obtain ⟨serving, hstep, rfl⟩ := Option.map_eq_some_iff.1 h
      exact ⟨.serving (Serving.step_cases hstep), .tail .refl trivial hstep⟩
  | start k r path contentType found autoplay currentTime =>
      simp only [system, step] at h
      split at h
      next hcast hcall =>
        obtain rfl := Option.some.inj h
        have hstep : (Serving.system servers).step x.serving (.call r k path contentType found) =
            some (x.serving.begin r k path contentType found) := by
          simp only [Serving.system, Serving.step, hcall]
        exact ⟨.start hcast hcall, .tail .refl trivial hstep⟩
      next => contradiction
  | served k =>
      simp only [system, step] at h
      split at h
      next url hcast hcall =>
        obtain rfl := Option.some.inj h
        exact ⟨.served hcast hcall, .refl⟩
      next hcast _ =>
        obtain rfl := Option.some.inj h
        exact ⟨.dropped (hcast ▸ CastPc.noConfusion), .refl⟩
      next => contradiction
  | loaded k =>
      simp only [system, step] at h
      split at h
      next url hcast =>
        obtain rfl := Option.some.inj h
        exact ⟨.loaded hcast, .refl⟩
      next => contradiction
  | failed k =>
      simp only [system, step] at h
      split at h
      next hcast =>
        obtain rfl := Option.some.inj h
        exact ⟨.dropped (hcast ▸ CastPc.noConfusion), .refl⟩
      next => contradiction
  | dropServer k =>
      simp only [system, step] at h
      split at h
      next hcast =>
        obtain rfl := Option.some.inj h
        exact ⟨.dropped (hcast ▸ CastPc.noConfusion), .refl⟩
      next => contradiction

/-- The servers of casts are servers like others. -/
theorem serving_reachable (h : (system servers).Reachable x) :
    (Serving.system servers).Reachable x.serving :=
  TransitionSystem.Run.simulate (N := Serving.system servers) (fun x : Casting => x.serving)
    TransitionSystem.Any h fun _ _ _ _ hstep => (step_cases hstep).2

/-! ## what a cast has -/

/-- The call of `serve_file` of a cast is for its own file on its own server, and the cast
has its URL. -/
structure Owns (x : Casting) (k : Nat) : Prop where
  begun : (x.serving.calls (x.casts k).call).pc ≠ .idle
  server : (x.serving.calls (x.casts k).call).server = k
  path : (x.serving.calls (x.casts k).call).path = (x.casts k).path
  contentType : (x.serving.calls (x.casts k).call).contentType = (x.casts k).contentType
  url : ∀ url, (x.casts k).pc.url? = some url →
    (x.serving.calls (x.casts k).call).pc = .returned (.ok url)

/-- Every cast that has begun owns its call. -/
def Owned (x : Casting) : Prop := ∀ k, (x.casts k).pc ≠ .idle → Owns x k

/-- A cast whose call goes on as it is. -/
theorem Owns.congr (h : Owns x k) (hcast : y.casts k = x.casts k)
    (hcall : y.serving.calls (x.casts k).call = x.serving.calls (x.casts k).call) : Owns y k := by
  constructor <;> rw [hcast, hcall]
  · exact h.begun
  · exact h.server
  · exact h.path
  · exact h.contentType
  · exact h.url

theorem Owned.serving (h : Owned x) {serving : Serving}
    (hstep : Serving.Step servers x.serving serving) : Owned { x with serving } := by
  intro k hk
  obtain ⟨hbegun, hserver, hpath, htype, hurl⟩ := h k hk
  obtain ⟨hbegun', hserver', hpath', htype'⟩ := hstep.begun hbegun
  refine ⟨hbegun', hserver'.trans hserver, hpath'.trans hpath, htype'.trans htype, ?_⟩
  intro url hpc
  have hret := hurl url hpc
  change (serving.calls _).pc = _
  rw [hstep.returned hret, hret]

theorem Owned.start (h : Owned x) {j r : Nat} {path contentType : String} {found autoplay : Bool}
    {currentTime : F64} (hcall : (x.serving.calls r).pc = .idle) :
    Owned
      { serving := x.serving.begin r j path contentType found
        casts := Function.update x.casts j
          ⟨path, contentType, autoplay, currentTime, r, .registering⟩ } := by
  intro k hk
  by_cases hkj : k = j
  · subst hkj
    constructor <;> simp only [Function.update_self, Serving.calls_begin, if_pos]
    · cases found <;> exact ServePc.noConfusion
    · exact fun url hurl => nomatch hurl
  · simp only [Function.update_of_ne hkj] at hk
    have hown := h k hk
    -- the call of another cast is under way
    have hne : (x.casts k).call ≠ r := fun heq => hown.begun (heq ▸ hcall)
    refine hown.congr (Function.update_of_ne hkj ..) ?_
    rw [Serving.calls_begin, if_neg hne]

theorem Owned.goto (h : Owned x) {j : Nat} {pc : CastPc} (hpc : (x.casts j).pc ≠ .idle)
    (hurl : ∀ url, pc.url? = some url →
      (x.serving.calls (x.casts j).call).pc = .returned (.ok url)) : Owned (x.goto j pc) := by
  intro k hk
  by_cases hkj : k = j
  · subst hkj
    have hown := h k hpc
    constructor <;> simp only [Casting.goto, Function.update_self]
    · exact hown.begun
    · exact hown.server
    · exact hown.path
    · exact hown.contentType
    · exact hurl
  · simp only [Casting.goto, Function.update_of_ne hkj] at hk
    exact (h k hk).congr (Function.update_of_ne hkj ..) rfl

theorem Owned.step (h : Owned x) (hstep : Step servers x y) : Owned y := by
  cases hstep with
  | serving hstep => exact h.serving hstep
  | start hcast hcall => exact h.start hcall
  | served hcast hcall =>
      refine h.goto (hcast ▸ CastPc.noConfusion) fun url hurl => ?_
      rw [hcall, Option.some.inj hurl]
  | @loaded k url hcast =>
      have hne : (x.casts k).pc ≠ .idle := hcast ▸ CastPc.noConfusion
      exact h.goto hne fun url' hurl => (h k hne).url url' (hcast ▸ hurl)
  | dropped hcast => exact h.goto hcast fun url hurl => nomatch hurl

theorem owned_of_reachable (h : (system servers).Reachable x) : Owned x :=
  h.invariant (fun _ hk => absurd rfl hk) fun _ _ _ hx _ hstep => hx.step (step_cases hstep).1

end Casting

/-- **What is cast is what is served**: from the return of `serve_file` until the server
is dropped, with the error or the future of `load_media` or by the caller, the LOAD of a
`serve_and_cast` describes a media of the given content type at a URL of its server, and a
request for that URL is answered with the file that was given, unless a thread has
panicked under the lock of the registry or the counter has come round. -/
theorem cast_file_served (serde : SerdeJson) (servers : Nat → FileServer) (routes : Routes)
    (disk : String → Except String OpenFile) {x : Casting}
    (hx : (Casting.system servers).Reachable x) (hfew : x.serving.issued ≤ 2 ^ 64) {k : Nat}
    {url : String} (hurl : (x.casts k).pc.url? = some url) (requestId : UInt32) (target : Target) :
    ∃ payload media path,
      ((x.casts k).load serde url).message requestId target =
        buildMessage Ns.nsMedia Ns.senderId target.transportId (serde.toString payload) ∧
      payload.get "media" = some media ∧
      (parseMediaInfo media).map (·.contentType) = some (x.casts k).contentType ∧
      ((parseMediaInfo media).bind fun m => splitUrl m.contentId.toList) =
        some ((servers k).authority.toList, String.toList path) ∧
      ∀ range, (x.serving.files k).isSome →
        x.get routes disk k path range = some
          (FileEntry.respond disk ⟨(x.casts k).path, (x.casts k).contentType⟩ range) := by
  have hbegun : (x.casts k).pc ≠ .idle := fun hidle => by
    rw [hidle] at hurl
    cases hurl
  obtain ⟨-, hserver, hpath, htype, hret⟩ := Casting.owned_of_reachable hx k hbegun
  obtain ⟨path, hsplit, hget⟩ := Serving.get_of_returned routes disk (Casting.serving_reachable hx)
    hfew (hret url hurl)
  rw [hserver] at hsplit hget
  have hecho := Media.media_roundtrip (.new url (x.casts k).contentType)
  refine ⟨_, Media.loadMediaObj (.new url (x.casts k).contentType), path, rfl, rfl, ?_, ?_, ?_⟩
  · rw [hecho]
    rfl
  · rw [hecho]
    exact hsplit
  · intro range hsome
    have halive : x.get routes disk k path range = x.serving.get routes disk k path range := by
      rw [Casting.get]
      cases hpc : (x.casts k).pc with
      | idle | dropped =>
          rw [hpc] at hurl
          cases hurl
      | registering | loading | playing => rfl
    rw [halive, hget, if_pos hsome, hpath, htype]

/-- A second file is registered while the first is being cast. -/
def twoCasts : List CastingAct :=
  [.start 0 0 "a.mp4" "video/mp4" true true ⟨0⟩, .start 1 1 "b.webm" "video/webm" true false ⟨0⟩,
    .serving (.fetchAdd 1), .serving (.fetchAdd 0), .serving (.insert 0), .served 0]

theorem cast_file_served_home :
    ∃ x, (Casting.system fun _ => Serving.homeServer).exec
        ⟨.start, fun _ => ⟨"", "", false, ⟨0⟩, 0, .idle⟩⟩ twoCasts = some x ∧
    ∃ payload media path,
      ((x.casts 0).load ⟨fun _ => none, Json.compact⟩ (Serving.homeServer.url 1)).message 7
          ⟨"web-1", "s-1", 0⟩ =
        buildMessage Ns.nsMedia Ns.senderId "web-1" (Json.compact payload) ∧
      payload.get "media" = some media ∧
      (parseMediaInfo media).map (·.contentType) = some "video/mp4" ∧
      ((parseMediaInfo media).bind fun m => splitUrl m.contentId.toList) =
        some (Serving.homeServer.authority.toList, String.toList path) ∧
      ∀ range, (x.serving.files 0).isSome →
        x.get Serving.plainRoutes (fun _ => .ok clip) 0 path range = some
          (FileEntry.respond (fun _ => .ok clip) ⟨"a.mp4", "video/mp4"⟩ range) := by
  have hx := TransitionSystem.reachable_of_exec
    (M := Casting.system fun _ => Serving.homeServer) twoCasts rfl
  exact ⟨_, rfl, cast_file_served ⟨fun _ => none, Json.compact⟩ (fun _ => Serving.homeServer)
    Serving.plainRoutes (fun _ => .ok clip) hx (by decide : 2 ≤ 2 ^ 64) (k := 0) rfl 7
    ⟨"web-1", "s-1", 0⟩⟩

end Oxicast

import Oxicast.Discovery
import Oxicast.Hex
import Oxicast.Serve.Range
import Oxicast.Transition

/-!
# Oxicast.Serve.Registry

The registries of file servers, and the URLs their files are served at.

`FileServer::serve_file` may be called by any number of threads, on any server of
the process: it draws a number from one counter all servers share and inserts the
file under it into the registry of its own server.  An action is what one call
does between two accesses to what is shared; requests only read.  The servers of
this module run all the time.
-/

namespace Oxicast

/-! ## URLs -/

/-- `a.b.c.d`. -/
def Ipv4Addr.text (ip : Ipv4Addr) : String :=
  toString (ip >>> 24).toUInt8 ++ "." ++ toString (ip >>> 16).toUInt8 ++ "." ++
    toString (ip >>> 8).toUInt8 ++ "." ++ toString ip.toUInt8

/-- `{:x}`. -/
def hexText (n : UInt64) : String := String.ofList (Nat.toDigits 16 n.toNat)

/-- Where a server is reached. -/
structure FileServer where
  lanIp : Ipv4Addr
  port : UInt16

namespace FileServer

def authority (server : FileServer) : String := server.lanIp.text ++ ":" ++ toString server.port

/-- The URL of a file. -/
def url (server : FileServer) (id : UInt64) : String :=
  "http://" ++ server.authority ++ "/file/" ++ hexText id

end FileServer

/-- The authority and the path of an `http` URL. -/
def splitUrl (url : List Char) : Option (List Char × List Char) :=
  (url.dropPrefix? "http://".toList).map fun rest =>
    (rest.takeWhile (· ≠ '/'), rest.dropWhile (· ≠ '/'))

/-- What axum makes of a request path under the route `/file/{id}`: one segment
of letters and digits is captured as it is. -/
structure Routes where
  capture : String → Option String
  captures (id : String) (hne : id ≠ "") (hplain : id.toList.all Char.isAlphanum) :
    capture ("/file/" ++ id) = some id

theorem hexText_injective : Function.Injective hexText := by
  intro a b h
  have hdigits : Nat.toDigits 16 a.toNat = Nat.toDigits 16 b.toNat := by
    have := congrArg String.toList h
    simpa only [hexText, String.toList_ofList] using this
  exact UInt64.toNat_inj.1 (Hex.toDigits_injective (by decide) (by decide) hdigits)

theorem hexText_plain (n : UInt64) : (hexText n).toList.all Char.isAlphanum := by
  have hplain : Hex.alphabet.all Char.isAlphanum = true := by decide
  rw [hexText, String.toList_ofList, List.all_eq_true]
  exact fun c hc => List.all_eq_true.1 hplain c
    (Hex.mem_alphabet_of_mem_toDigits (by decide) (by decide) hc)

theorem hexText_ne_empty (n : UInt64) : hexText n ≠ "" := by
  intro h
  have hnil := congrArg String.toList h
  rw [hexText, String.toList_ofList] at hnil
  exact Nat.toDigits_ne_nil hnil

theorem slash_not_mem_repr (n : Nat) : '/' ∉ n.repr.toList := by
  rw [Nat.toList_repr]
  exact (isNumeral_toDigits n).not_mem rfl

/-- The address a server is reached at has no slash. -/
theorem slash_not_mem_authority (server : FileServer) : '/' ∉ server.authority.toList := by
  have hbyte (n : UInt8) : '/' ∉ (toString n).toList := slash_not_mem_repr n.toNat
  have hport : '/' ∉ (toString server.port).toList := slash_not_mem_repr server.port.toNat
  simp [FileServer.authority, Ipv4Addr.text, hbyte, hport]

theorem splitUrl_url (server : FileServer) (id : UInt64) :
    splitUrl (server.url id).toList =
      some (server.authority.toList, ("/file/" ++ hexText id).toList) := by
  have hauthority (c : Char) (hc : c ∈ server.authority.toList) : decide (c ≠ '/') = true := by
    simpa using fun heq : c = '/' => slash_not_mem_authority server (heq ▸ hc)
  have hurl : (server.url id).toList = "http://".toList ++
      (server.authority.toList ++ '/' :: ("file/".toList ++ (hexText id).toList)) := by
    simp [FileServer.url]
  have hrest : (server.url id).toList.dropPrefix? "http://".toList =
      some (server.authority.toList ++ '/' :: ("file/".toList ++ (hexText id).toList)) :=
    List.dropPrefix?_eq_some_iff.2 ⟨_, hurl, beq_self_eq_true _⟩
  rw [splitUrl, hrest, Option.map_some, List.takeWhile_append_of_pos hauthority,
    List.dropWhile_append_of_pos hauthority]
  simp

/-- A URL tells the number, whatever the server. -/
theorem id_eq_of_url_eq {server server' : FileServer} {id id' : UInt64}
    (h : server.url id = server'.url id') : id = id' := by
  have hsplit := splitUrl_url server id
  rw [h, splitUrl_url, Option.some.injEq, Prod.mk.injEq, String.toList_inj] at hsplit
  have hname : "/file/".toList ++ (hexText id').toList = "/file/".toList ++
      (hexText id).toList := by
    rw [← String.toList_append, ← String.toList_append, hsplit.2]
  exact (hexText_injective (String.toList_inj.1 (List.append_cancel_left hname))).symm

/-! ## the registries -/

/-- The errors of the file server. -/
inductive ServeError where
  | fileNotFound (path : String)
  | internal (message : String)
  deriving DecidableEq

inductive ServePc where
  | idle
  /-- the path exists; about to increment the counter -/
  | checked
  /-- about to take the write lock -/
  | numbered
  | returned (result : Except ServeError String)

/-- A call of `FileServer::serve_file`, with what its locals hold. -/
structure ServeCall where
  server : Nat
  path : String
  contentType : String
  id : Option UInt64
  pc : ServePc

/-- The counter, the registries (`none`: the lock is poisoned) and the calls.
`issued` is a history variable no step reads: how often the counter has been
incremented. -/
structure Serving where
  counter : UInt64
  files : Nat → Option (String → Option FileEntry)
  calls : Nat → ServeCall
  issued : Nat

namespace Serving

def start : Serving where
  counter := 0
  files _ := some fun _ => none
  calls _ := ⟨0, "", "", none, .idle⟩
  issued := 0

/-- Change one call. -/
def setCall (s : Serving) (r : Nat) (call : ServeCall) : Nat → ServeCall :=
  Function.update s.calls r call

/-- A call starts with a look at the disk. -/
def begin (s : Serving) (r server : Nat) (path contentType : String) (found : Bool) : Serving :=
  { s with
    calls := s.setCall r
      ⟨server, path, contentType, none,
        if found then .checked else .returned (.error (.fileNotFound path))⟩ }

/-- `COUNTER.fetch_add(1)`. -/
def fetchAdd (s : Serving) (r : Nat) : Serving :=
  { s with
    counter := s.counter + 1
    calls := s.setCall r { s.calls r with id := some s.counter, pc := .numbered }
    issued := s.issued + 1 }

/-- A call returns. -/
def ret (s : Serving) (r : Nat) (result : Except ServeError String) : Serving :=
  { s with calls := s.setCall r { s.calls r with pc := .returned result } }

/-- The file is inserted under the write lock, and its URL returned. -/
def insert (servers : Nat → FileServer) (s : Serving) (r : Nat) (id : UInt64) : Serving :=
  let call := s.calls r
  match s.files call.server with
  | some files =>
      { s with
        files := Function.update s.files call.server
          (some (Function.update files (hexText id) (some ⟨call.path, call.contentType⟩))) }.ret r
        (.ok ((servers call.server).url id))
  | none => s.ret r (.error (.internal "file registry lock poisoned"))

/-- A thread panics under the write lock. -/
def poison (s : Serving) (server : Nat) : Serving :=
  { s with files := Function.update s.files server none }

end Serving

inductive ServingAct where
  | call (r server : Nat) (path contentType : String) (found : Bool)
  | fetchAdd (r : Nat)
  | insert (r : Nat)
  | poison (server : Nat)

namespace Serving

def step (servers : Nat → FileServer) (s : Serving) : ServingAct → Option Serving
  | .call r server path contentType found =>
      match (s.calls r).pc with
      | .idle => some (s.begin r server path contentType found)
      | _ => none
  | .fetchAdd r =>
      match (s.calls r).pc with
      | .checked => some (s.fetchAdd r)
      | _ => none
  | .insert r =>
      match (s.calls r).pc, (s.calls r).id with
      | .numbered, some id => some (s.insert servers r id)
      | _, _ => none
  | .poison server => some (s.poison server)

/-- All interleavings of the calls on all servers of a process. -/
def system (servers : Nat → FileServer) : TransitionSystem Serving ServingAct :=
  ⟨start, step servers⟩

/-- The answer to a request for a path; `none` when no route matches. -/
def get (routes : Routes) (disk : String → Except String OpenFile) (s : Serving) (server : Nat)
    (path : String) (rangeHeader : Option HeaderValue) : Option Response :=
  (routes.capture path).map fun id => serveFile disk (s.files server) id rangeHeader

end Serving

/-- The handler once the entry is found: what the file it names is answered with. -/
def FileEntry.respond (disk : String → Except String OpenFile) (entry : FileEntry)
    (rangeHeader : Option HeaderValue) : Response :=
  match disk entry.path with
  | .error e => errorResponse .internalServerError s!"open: {e}"
  | .ok file =>
      match file.metadata with
      | .error e => errorResponse .internalServerError s!"metadata: {e}"
      | .ok () => file.serve entry.contentType rangeHeader

theorem serveFile_of_entry {disk : String → Except String OpenFile}
    {files : String → Option FileEntry} {id : String} {entry : FileEntry}
    (h : files id = some entry) (rangeHeader : Option HeaderValue) :
    serveFile disk (some files) id rangeHeader = entry.respond disk rangeHeader := by
  simp only [serveFile, h]
  rfl

/-! ## what a step does -/

namespace Serving

variable {servers : Nat → FileServer} {s t : Serving} {a : ServingAct}

/-- What a step does: every call but one stays as it is. -/
inductive Step (servers : Nat → FileServer) (s : Serving) : Serving → Prop
  | call {r server : Nat} {path contentType : String} {found : Bool}
      (hpc : (s.calls r).pc = .idle) :
      Step servers s (s.begin r server path contentType found)
  | fetchAdd {r : Nat} (hpc : (s.calls r).pc = .checked) : Step servers s (s.fetchAdd r)
  | insert {r : Nat} {id : UInt64} (hpc : (s.calls r).pc = .numbered)
      (hid : (s.calls r).id = some id) :
      Step servers s (s.insert servers r id)
  | poison (server : Nat) : Step servers s (s.poison server)

theorem step_cases (h : step servers s a = some t) : Step servers s t := by
  cases a with
  | call r server path contentType found =>
      simp only [step] at h
      split at h
      next hpc => exact Option.some.inj h ▸ .call hpc
      next => contradiction
  | fetchAdd r =>
      simp only [step] at h
      split at h
      next hpc => exact Option.some.inj h ▸ .fetchAdd hpc
      next => contradiction
  | insert r =>
      simp only [step] at h
      split at h
      next id hpc hid => exact Option.some.inj h ▸ .insert hpc hid
      next => contradiction
  | poison server => exact Option.some.inj h ▸ .poison server

/-- A call has registered its file under its id. -/
def Has (s : Serving) (r : Nat) (id : UInt64) : Prop :=
  ∀ files, s.files (s.calls r).server = some files →
    files (hexText id) = some ⟨(s.calls r).path, (s.calls r).contentType⟩

/-- What holds in every reachable state.  The ids are distinct as long as the
counter has not come round. -/
structure Valid (servers : Nat → FileServer) (s : Serving) : Prop where
  counter : s.counter = UInt64.ofNat s.issued
  below : s.issued ≤ 2 ^ 64 → ∀ r id, (s.calls r).id = some id → id.toNat < s.issued
  distinct : s.issued ≤ 2 ^ 64 →
    ∀ r r' id, (s.calls r).id = some id → (s.calls r').id = some id → r = r'
  returned : ∀ r url, (s.calls r).pc = .returned (.ok url) →
    ∃ id, (s.calls r).id = some id ∧ url = (servers (s.calls r).server).url id ∧
      (s.issued ≤ 2 ^ 64 → s.Has r id)
  entries : ∀ server files name entry, s.files server = some files → files name = some entry →
    ∃ r id, (s.calls r).server = server ∧ (s.calls r).id = some id ∧ name = hexText id ∧
      entry = ⟨(s.calls r).path, (s.calls r).contentType⟩ ∧
      (s.calls r).pc = .returned (.ok ((servers server).url id))

theorem valid_start : Valid servers start where
  counter := rfl
  below _ _ _ h := by cases h
  distinct _ _ _ _ h := by cases h
  returned _ _ h := by cases h
  entries server files name entry hfiles hentry := by
    obtain rfl := Option.some.inj hfiles
    cases hentry

theorem calls_begin (s : Serving) (r server x : Nat) (path contentType : String)
    (found : Bool) :
    (s.begin r server path contentType found).calls x =
      if x = r then
        ⟨server, path, contentType, none,
          if found then .checked else .returned (.error (.fileNotFound path))⟩
      else s.calls x :=
  Function.update_apply ..

theorem calls_ret (s : Serving) (r x : Nat) (result : Except ServeError String) :
    (s.ret r result).calls x =
      { s.calls x with pc := if x = r then .returned result else (s.calls x).pc } := by
  simp only [ret, setCall, Function.update_apply]
  split
  next hx => rw [hx]
  next => rfl

theorem calls_fetchAdd (s : Serving) (r x : Nat) :
    (s.fetchAdd r).calls x =
      if x = r then { s.calls r with id := some s.counter, pc := .numbered } else s.calls x :=
  Function.update_apply ..

/-- An entry stays the one of the call that has registered it, if that call does. -/
theorem Valid.entries_of_calls (h : Valid servers s) {calls : Nat → ServeCall}
    (hcalls : ∀ x url, (s.calls x).pc = .returned (.ok url) → calls x = s.calls x) {server : Nat}
    {files : String → Option FileEntry} {name : String} {entry : FileEntry}
    (hfiles : s.files server = some files) (hentry : files name = some entry) :
    ∃ x id, (calls x).server = server ∧ (calls x).id = some id ∧ name = hexText id ∧
      entry = ⟨(calls x).path, (calls x).contentType⟩ ∧
      (calls x).pc = .returned (.ok ((servers server).url id)) := by
  obtain ⟨x, id, hserver, hid, hname, hcall, hret⟩ :=
    h.entries server files name entry hfiles hentry
  refine ⟨x, id, ?_⟩
  rw [hcalls x _ hret]
  exact ⟨hserver, hid, hname, hcall, hret⟩

theorem Valid.begin (h : Valid servers s) {r server : Nat} {path contentType : String}
    {found : Bool}
    (hpc : (s.calls r).pc = .idle) : Valid servers (s.begin r server path contentType found) where
  counter := h.counter
  below hfew x id hid := by
    rw [calls_begin] at hid
    split at hid
    · cases hid
    · exact h.below hfew x id hid
  distinct hfew x y id hx hy := by
    rw [calls_begin] at hx hy
    split at hx
    · cases hx
    split at hy
    · cases hy
    exact h.distinct hfew x y id hx hy
  returned x url hret := by
    by_cases hx : x = r
    · rw [calls_begin, if_pos hx] at hret
      cases found <;> cases hret
    · simp only [Has, calls_begin, if_neg hx] at hret ⊢
      exact h.returned x url hret
  entries server files name entry hfiles hentry := by
    refine h.entries_of_calls (fun x url hx => ?_) hfiles hentry
    rw [calls_begin, if_neg]
    rintro rfl
    rw [hpc] at hx
    cases hx

/-- The number that is drawn next is new. -/
theorem Valid.counter_fresh (h : Valid servers s) (hfew : s.issued < 2 ^ 64) (r : Nat) :
    (s.calls r).id ≠ some s.counter := by
  intro hid
  have hbelow := h.below (Nat.le_of_lt hfew) r _ hid
  rw [h.counter, UInt64.toNat_ofNat_of_lt' hfew] at hbelow
  exact Nat.lt_irrefl _ hbelow

theorem Valid.fetchAdd (h : Valid servers s) {r : Nat} (hpc : (s.calls r).pc = .checked) :
    Valid servers (s.fetchAdd r) where
  counter := by
    rw [Serving.fetchAdd, h.counter]
    exact (UInt64.ofNat_add _ _).symm
  below hfew x id hid := by
    have hlt : s.issued < 2 ^ 64 := hfew
    rw [calls_fetchAdd] at hid
    split at hid
    · obtain rfl := Option.some.inj hid
      rw [h.counter, UInt64.toNat_ofNat_of_lt' hlt]
      exact Nat.lt_succ_self _
    · exact Nat.lt_succ_of_lt (h.below (Nat.le_of_lt hlt) x id hid)
  distinct hfew x y id hx hy := by
    have hlt : s.issued < 2 ^ 64 := hfew
    have hnew := h.counter_fresh hlt
    rw [calls_fetchAdd] at hx hy
    split at hx
    next hxr =>
      obtain rfl := Option.some.inj hx
      split at hy
      next hyr => rw [hxr, hyr]
      next => exact absurd hy (hnew y)
    next =>
      split at hy
      next =>
        obtain rfl := Option.some.inj hy
        exact absurd hx (hnew x)
      next => exact h.distinct (Nat.le_of_lt hlt) x y id hx hy
  returned x url hret := by
    by_cases hx : x = r
    · rw [calls_fetchAdd, if_pos hx] at hret
      cases hret
    · simp only [Has, calls_fetchAdd, if_neg hx] at hret ⊢
      obtain ⟨id, hid, hurl, hhas⟩ := h.returned x url hret
      exact ⟨id, hid, hurl, fun hfew => hhas (Nat.le_of_succ_le hfew)⟩
  entries server files name entry hfiles hentry := by
    refine h.entries_of_calls (fun x url hx => ?_) hfiles hentry
    rw [calls_fetchAdd, if_neg]
    rintro rfl
    rw [hpc] at hx
    cases hx

/-- A call that has a number fails. -/
theorem Valid.ret_error (h : Valid servers s) {r : Nat} {e : ServeError}
    (hpc : (s.calls r).pc = .numbered) : Valid servers (s.ret r (.error e)) where
  counter := h.counter
  below hfew x id hid := by
    rw [calls_ret] at hid
    exact h.below hfew x id hid
  distinct hfew x y id hx hy := by
    rw [calls_ret] at hx hy
    exact h.distinct hfew x y id hx hy
  returned x url hret := by
    simp only [Has, calls_ret] at hret ⊢
    split at hret
    next => cases hret
    next => exact h.returned x url hret
  entries server files name entry hfiles hentry := by
    refine h.entries_of_calls (fun x url hx => ?_) hfiles hentry
    rw [calls_ret, if_neg]
    rintro rfl
    rw [hpc] at hx
    cases hx

theorem Valid.ret_ok (h : Valid servers s) {r : Nat} {id : UInt64}
    (hpc : (s.calls r).pc = .numbered) (hid : (s.calls r).id = some id)
    {files : String → Option FileEntry} (hfiles : s.files (s.calls r).server = some files) :
    Valid servers ({ s with
      files := Function.update s.files (s.calls r).server (some (Function.update files (hexText id)
        (some ⟨(s.calls r).path, (s.calls r).contentType⟩))) }.ret r
      (.ok ((servers (s.calls r).server).url id))) where
  counter := h.counter
  below hfew x k hk := by
    rw [calls_ret] at hk
    exact h.below hfew x k hk
  distinct hfew x y k hx hy := by
    rw [calls_ret] at hx hy
    exact h.distinct hfew x y k hx hy
  returned x url hret := by
    simp only [Has, calls_ret] at hret ⊢
    split at hret
    next hx =>
      subst hx
      obtain rfl := Except.ok.inj (ServePc.returned.inj hret)
      refine ⟨id, hid, rfl, fun _ files' hfiles' => ?_⟩
      have hsame : Function.update files (hexText id)
          (some ⟨(s.calls x).path, (s.calls x).contentType⟩) = files' := by
        simpa [ret] using hfiles'
      rw [← hsame, Function.update_self]
    next hx =>
      obtain ⟨k, hk, hurl, hhas⟩ := h.returned x url hret
      refine ⟨k, hk, hurl, fun hfew files' hfiles' => ?_⟩
      by_cases hserver : (s.calls x).server = (s.calls r).server
      · -- another file of the same server: its number is another one
        have hne : hexText k ≠ hexText id := fun heq =>
          hx (h.distinct hfew x r k hk (hexText_injective heq ▸ hid))
        have hsame : Function.update files (hexText id)
            (some ⟨(s.calls r).path, (s.calls r).contentType⟩) = files' := by
          simpa [ret, hserver] using hfiles'
        rw [← hsame, Function.update_of_ne hne]
        exact hhas hfew files (hserver ▸ hfiles)
      · refine hhas hfew files' ?_
        simpa [ret, hserver] using hfiles'
  entries server files' name entry hfiles' hentry := by
    have hcalls (x : Nat) (url : String) (hx : (s.calls x).pc = .returned (.ok url)) : x ≠ r := by
      rintro rfl
      rw [hpc] at hx
      cases hx
    by_cases hserver : server = (s.calls r).server
    · subst hserver
      have hsame : Function.update files (hexText id)
          (some ⟨(s.calls r).path, (s.calls r).contentType⟩) = files' := by
        simpa [ret] using hfiles'
      rw [← hsame, Function.update_apply] at hentry
      split at hentry
      next hname =>
        refine ⟨r, id, ?_⟩
        rw [calls_ret, if_pos rfl]
        exact ⟨rfl, hid, hname, (Option.some.inj hentry).symm, rfl⟩
      next =>
        refine h.entries_of_calls (fun x url hx => ?_) hfiles hentry
        rw [calls_ret, if_neg (hcalls x url hx)]
    · have hsame : s.files server = some files' := by
        simpa [ret, hserver] using hfiles'
      refine h.entries_of_calls (fun x url hx => ?_) hsame hentry
      rw [calls_ret, if_neg (hcalls x url hx)]

theorem Valid.insert (h : Valid servers s) {r : Nat} {id : UInt64}
    (hpc : (s.calls r).pc = .numbered)
    (hid : (s.calls r).id = some id) : Valid servers (s.insert servers r id) := by
  cases hfiles : s.files (s.calls r).server with
  | some files =>
      simp only [Serving.insert, hfiles]
      exact h.ret_ok hpc hid hfiles
  | none =>
      simp only [Serving.insert, hfiles]
      exact h.ret_error hpc

theorem Valid.poison (h : Valid servers s) (server : Nat) : Valid servers (s.poison server) where
  counter := h.counter
  below := h.below
  distinct := h.distinct
  returned x url hret := by
    obtain ⟨id, hid, hurl, hhas⟩ := h.returned x url hret
    refine ⟨id, hid, hurl, fun hfew files hfiles => ?_⟩
    simp only [Serving.poison, Function.update_apply] at hfiles
    split at hfiles
    next => cases hfiles
    next => exact hhas hfew files hfiles
  entries i files name entry hfiles hentry := by
    simp only [Serving.poison, Function.update_apply] at hfiles
    split at hfiles
    next => cases hfiles
    next => exact h.entries i files name entry hfiles hentry

theorem Valid.step (h : Valid servers s) (hstep : Step servers s t) : Valid servers t := by
  cases hstep with
  | call hpc => exact h.begin hpc
  | fetchAdd hpc => exact h.fetchAdd hpc
  | insert hpc hid => exact h.insert hpc hid
  | poison server => exact h.poison server

theorem valid_of_reachable (h : (system servers).Reachable s) : Valid servers s :=
  h.invariant valid_start fun _ _ _ hx _ hstep => hx.step (step_cases hstep)

/-! ## what is served -/

/-- A call that has begun goes on with the same arguments. -/
theorem Step.begun {r : Nat} (h : Step servers s t) (hpc : (s.calls r).pc ≠ .idle) :
    (t.calls r).pc ≠ .idle ∧ (t.calls r).server = (s.calls r).server ∧
      (t.calls r).path = (s.calls r).path ∧ (t.calls r).contentType = (s.calls r).contentType := by
  have hret {u : Serving} (x : Nat) (result : Except ServeError String) (hu : u.calls = s.calls) :
      ((u.ret x result).calls r).pc ≠ .idle ∧
        ((u.ret x result).calls r).server = (s.calls r).server ∧
        ((u.ret x result).calls r).path = (s.calls r).path ∧
        ((u.ret x result).calls r).contentType = (s.calls r).contentType := by
    rw [calls_ret, hu]
    refine ⟨?_, rfl, rfl, rfl⟩
    dsimp only
    split
    · exact ServePc.noConfusion
    · exact hpc
  cases h with
  | @call x server path contentType found hidle =>
      have hx : r ≠ x := fun heq => hpc (heq ▸ hidle)
      rw [calls_begin, if_neg hx]
      exact ⟨hpc, rfl, rfl, rfl⟩
  | fetchAdd _ =>
      rw [calls_fetchAdd]
      split
      next hx => exact ⟨ServePc.noConfusion, hx ▸ rfl, hx ▸ rfl, hx ▸ rfl⟩
      next => exact ⟨hpc, rfl, rfl, rfl⟩
  | @insert x id _ _ =>
      dsimp only [Serving.insert]
      split
      · exact hret x _ rfl
      · exact hret x _ rfl
  | poison server => exact ⟨hpc, rfl, rfl, rfl⟩

/-- A call that has returned is left alone. -/
theorem Step.returned {r : Nat} {result : Except ServeError String} (h : Step servers s t)
    (hret : (s.calls r).pc = .returned result) : t.calls r = s.calls r := by
  have hother {x : Nat} {pc : ServePc} (hpc : (s.calls x).pc = pc) (hne : pc ≠ .returned result) :
      r ≠ x := by
    rintro rfl
    exact hne (hpc ▸ hret)
  cases h with
  | call hpc => rw [calls_begin, if_neg (hother hpc ServePc.noConfusion)]
  | fetchAdd hpc => rw [calls_fetchAdd, if_neg (hother hpc ServePc.noConfusion)]
  | @insert x id hpc hid =>
      have hx : r ≠ x := hother hpc ServePc.noConfusion
      dsimp only [Serving.insert]
      split
      all_goals rw [calls_ret, if_neg hx]
  | poison server => rfl

theorem returned_of_run {r : Nat} {result : Except ServeError String}
    (h : (system servers).Run TransitionSystem.Any s t) (hret : (s.calls r).pc = .returned result) :
    t.calls r = s.calls r :=
  h.invariant (I := fun x => x.calls r = s.calls r) rfl fun x _ y hx _ hstep => by
    rw [(step_cases hstep).returned (hx ▸ hret), hx]

/-- A returned URL leads to the file of its call. -/
theorem get_of_returned (routes : Routes) (disk : String → Except String OpenFile)
    (ht : (system servers).Reachable t) (hfew : t.issued ≤ 2 ^ 64) {r : Nat} {url : String}
    (hret : (t.calls r).pc = .returned (.ok url)) :
    ∃ path, splitUrl url.toList =
        some ((servers (t.calls r).server).authority.toList, String.toList path) ∧
      ∀ range, t.get routes disk (t.calls r).server path range = some
        (if (t.files (t.calls r).server).isSome then
          FileEntry.respond disk ⟨(t.calls r).path, (t.calls r).contentType⟩ range
        else errorResponse .internalServerError "lock poisoned") := by
  obtain ⟨id, hid, rfl, hhas⟩ := (valid_of_reachable ht).returned r url hret
  refine ⟨"/file/" ++ hexText id, splitUrl_url _ id, fun range => ?_⟩
  rw [Serving.get, routes.captures _ (hexText_ne_empty id) (hexText_plain id), Option.map_some]
  cases hfiles : t.files (t.calls r).server with
  | none => rfl
  | some files =>
      rw [serveFile_of_entry (hhas hfew files hfiles)]
      rfl

/-- **A returned URL stays good**: as long as the counter has not come round, a request
for it to a server that runs is answered with the file it was returned for, with its
content type, whatever is registered on whichever server; and no other call returns it. -/
theorem returned_url_served (routes : Routes) (disk : String → Except String OpenFile)
    (hs : (system servers).Reachable s) (hrun : (system servers).Run TransitionSystem.Any s t)
    (hfew : t.issued ≤ 2 ^ 64) {r : Nat} {url : String}
    (hret : (s.calls r).pc = .returned (.ok url)) :
    ∃ path, splitUrl url.toList =
        some ((servers (s.calls r).server).authority.toList, String.toList path) ∧
      (∀ range, t.get routes disk (s.calls r).server path range = some
        (if (t.files (s.calls r).server).isSome then
          FileEntry.respond disk ⟨(s.calls r).path, (s.calls r).contentType⟩ range
        else errorResponse .internalServerError "lock poisoned")) ∧
      ∀ r', (t.calls r').pc = .returned (.ok url) → r' = r := by
  have hkept := returned_of_run hrun hret
  rw [← hkept] at hret ⊢
  have ht : (system servers).Reachable t := hs.trans hrun
  obtain ⟨path, hpath, hget⟩ := get_of_returned routes disk ht hfew hret
  refine ⟨path, hpath, hget, fun r' hret' => ?_⟩
  have hvalid := valid_of_reachable ht
  obtain ⟨id, hid, hurl, -⟩ := hvalid.returned r url hret
  obtain ⟨id', hid', hurl', -⟩ := hvalid.returned r' url hret'
  exact hvalid.distinct hfew r' r id (id_eq_of_url_eq (hurl ▸ hurl') ▸ hid') hid

/-- Routes that capture one segment of letters and digits. -/
def plainRoutes : Routes where
  capture path :=
    ((path.toList.dropPrefix? "/file/".toList).filter fun id => id ≠ [] ∧
      id.all Char.isAlphanum).map
      String.ofList
  captures id hne hplain := by
    have hrest : ("/file/" ++ id).toList.dropPrefix? "/file/".toList = some id.toList :=
      List.dropPrefix?_eq_some_iff.2 ⟨_, String.toList_append, beq_self_eq_true _⟩
    have hnonempty : id.toList ≠ [] := fun h => hne (String.toList_inj.1 h)
    rw [hrest, Option.filter_some, if_pos (decide_eq_true ⟨hnonempty, hplain⟩), Option.map_some,
      String.ofList_toList]

/-- A server on a home network. -/
def homeServer : FileServer := ⟨0xC0A80102, 8000⟩

/-- The first of two files is registered under the second number. -/
def twoFiles : List ServingAct :=
  [.call 0 0 "a.mp4" "video/mp4" true, .call 1 0 "b.webm" "video/webm" true, .fetchAdd 1,
    .fetchAdd 0,
    .insert 0]

theorem returned_url_served_two : ∃ s t, (system fun _ => homeServer).exec start twoFiles = some s ∧
    (system fun _ => homeServer).exec s [.insert 1] = some t ∧
    ∃ path, splitUrl (homeServer.url 1).toList =
      some (homeServer.authority.toList, String.toList path) ∧
      (∀ range, t.get plainRoutes (fun _ => .error "gone") 0 path range =
        some (FileEntry.respond (fun _ => .error "gone") ⟨"a.mp4", "video/mp4"⟩ range)) ∧
      ∀ r', (t.calls r').pc = .returned (.ok (homeServer.url 1)) → r' = 0 := by
  have hs := TransitionSystem.reachable_of_exec (M := system fun _ => homeServer) twoFiles rfl
  exact ⟨_, _, rfl, rfl, returned_url_served plainRoutes (fun _ => .error "gone") hs
    (.tail .refl trivial (rfl : (system fun _ => homeServer).step _ (.insert 1) = some _))
    (by decide : 2 ≤ 2 ^ 64) (r := 0) rfl⟩

/-- **Nothing else is served**: whatever a server answers a request with, but for the two
refusals, is the file of one call on this very server, which has inserted it and so
returns its URL, or what could not be done with that file. -/
theorem served_was_registered (routes : Routes) (disk : String → Except String OpenFile)
    (hs : (system servers).Reachable s) {server : Nat} {path : String} {range : Option HeaderValue}
    {response : Response} (hget : s.get routes disk server path range = some response) :
    response = errorResponse .internalServerError "lock poisoned" ∨
      response = errorResponse .notFound "file not found" ∨
      ∃ r id, (s.calls r).server = server ∧ routes.capture path = some (hexText id) ∧
        (s.calls r).pc = .returned (.ok ((servers server).url id)) ∧
        response = FileEntry.respond disk ⟨(s.calls r).path, (s.calls r).contentType⟩ range := by
  obtain ⟨name, hname, rfl⟩ := Option.map_eq_some_iff.1 hget
  cases hfiles : s.files server with
  | none => exact .inl rfl
  | some files =>
      cases hentry : files name with
      | none =>
          refine .inr (.inl ?_)
          simp only [serveFile, hentry]
      | some entry =>
          obtain ⟨r, id, hserver, -, rfl, rfl, hret⟩ :=
            (valid_of_reachable hs).entries server files name entry hfiles hentry
          exact .inr (.inr ⟨r, id, hserver, hname, hret, serveFile_of_entry hentry range⟩)

/-- The second file, before its call has inserted it. -/
theorem served_was_registered_pending :
    ∃ s, (system fun _ => homeServer).exec start twoFiles = some s ∧
    ∃ response, s.get plainRoutes (fun _ => .error "gone") 0 "/file/0" none = some response ∧
    (response = errorResponse .internalServerError "lock poisoned" ∨
      response = errorResponse .notFound "file not found" ∨
      ∃ r id, (s.calls r).server = 0 ∧ plainRoutes.capture "/file/0" = some (hexText id) ∧
        (s.calls r).pc = .returned (.ok (homeServer.url id)) ∧
        response = FileEntry.respond (fun _ => .error "gone")
          ⟨(s.calls r).path, (s.calls r).contentType⟩ none) := by
  have hs := TransitionSystem.reachable_of_exec (M := system fun _ => homeServer) twoFiles rfl
  have hroute : plainRoutes.capture "/file/0" = some "0" := by decide
  have hget {s : Serving} {files : String → Option FileEntry} (hfiles : s.files 0 = some files) :
      s.get plainRoutes (fun _ => .error "gone") 0 "/file/0" none =
        some (serveFile (fun _ => .error "gone") (some files) "0" none) := by
    rw [get, hroute, hfiles, Option.map_some]
  refine ⟨_, rfl, ?_⟩
  exact ⟨_, hget rfl, served_was_registered plainRoutes (fun _ => .error "gone") hs (hget rfl)⟩

end Serving

end Oxicast

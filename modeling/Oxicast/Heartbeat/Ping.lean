import Oxicast.JsonText
import Oxicast.Router

/-!
# Oxicast.Heartbeat.Ping

The substring search of `is_ping` against the type of the parsed payload.

The search looks for the text `"PING"`, quotes included, and so finds it in any
string of the payload that is written so, at any depth, and not in a type that
is spelled with an escape.  On payloads without either it agrees with parsing.
-/

namespace Oxicast

open JsonText Ns

/-- `serde_json::from_str` reads the texts of documents: `parse` is the document
of a text, and `unescape` what a string stands for. -/
structure ReadsDocs (serde : SerdeJson) (parse : String → Option Doc)
    (unescape : List Char → String) : Prop where
  text : ∀ {p d}, parse p = some d → d.TextOf p.toList
  fromStr : ∀ {p}, serde.fromStr p = none ↔ parse p = none
  strAt : ∀ {p d json}, parse p = some d → serde.fromStr p = some json →
    ∀ key, json.strAt key = (d.stringAt unescape key).map unescape
  plain : ∀ {raw}, backslash ∉ raw → unescape raw = String.ofList raw

/-- The characters of `PING`. -/
def pingWord : List Char := msgPing.toList

theorem word_ping : Word pingWord := by decide

/-- No string but the type is written like a PING, and a type written with
escapes is none. -/
structure Unmistakable (unescape : List Char → String) (d : Doc) : Prop where
  elsewhere : ∀ raw, d.Elsewhere unescape "type" raw → ¬ Quotes pingWord raw
  escaped : ∀ raw, d.stringAt unescape "type" = some raw → backslash ∈ raw →
    unescape raw ≠ msgPing ∧ ¬ Quotes pingWord raw

/-- `route` enqueues a PONG, and nothing else. -/
def Pongs (serde : SerdeJson) (s : Router) (msg : CastMessage) : Prop :=
  (s.route serde msg).outbound = s.outbound ++ [pong serde]

variable {serde : SerdeJson} {parse : String → Option Doc} {unescape : List Char → String}
  {msg : CastMessage} {p : String}

theorem pongs_iff_isPing (hns : msg.ns = nsHeartbeat) (s : Router) :
    Pongs serde s msg ↔ isPing msg = true := by
  rw [Pongs, Router.route, if_pos hns]
  split_ifs with h
  · exact iff_of_true rfl h
  · refine iff_of_false (fun heq => ?_) h
    have hlength := congrArg List.length heq
    simp at hlength

theorem isPing_iff (hns : msg.ns = nsHeartbeat) (hp : msg.payloadUtf8 = some p) :
    isPing msg = true ↔ quoted pingWord <:+: p.toList := by
  have hquoted : quoted pingWord = "\"PING\"".toList := by decide
  rw [hquoted]
  simp only [isPing, hns, hp, true_and, Option.any_some, decide_eq_true_eq]

/-- In an unmistakable document the only quoted PING is the type. -/
theorem Unmistakable.quotes_iff {d : Doc} (h : Unmistakable unescape d)
    (hplain : ∀ {raw}, backslash ∉ raw → unescape raw = String.ofList raw) :
    (∃ raw, d.Has raw ∧ Quotes pingWord raw) ↔
      (d.stringAt unescape "type").map unescape = some msgPing := by
  rw [Option.map_eq_some_iff]
  constructor
  · rintro ⟨raw, hraw, hquotes⟩
    rcases hraw.elsewhere_or with helse | htype
    · exact absurd hquotes (h.elsewhere raw helse)
    · have hslash : backslash ∉ raw := fun hslash => (h.escaped raw htype hslash).2 hquotes
      refine ⟨raw, htype, ?_⟩
      rcases hquotes with rfl | hsuffix
      · rw [hplain hslash]
        rfl
      · exact absurd (hsuffix.subset List.mem_cons_self) hslash
  · rintro ⟨raw, htype, hping⟩
    have hslash : backslash ∉ raw := fun hslash => (h.escaped raw htype hslash).1 hping
    rw [hplain hslash] at hping
    refine ⟨raw, Doc.has_of_stringAt htype, .inl ?_⟩
    rw [pingWord, ← hping, String.toList_ofList]

/-- **The fast path** answers a heartbeat that contains `"PING"`; that is one whose
type is PING, when the payload is an unmistakable document or, being none, does
not contain it. -/
theorem pongs_iff (hreads : ReadsDocs serde parse unescape) (hns : msg.ns = nsHeartbeat)
    (hp : msg.payloadUtf8 = some p) (s : Router) :
    (Pongs serde s msg ↔ "\"PING\"".toList <:+: p.toList) ∧
    (∀ d, parse p = some d → (Pongs serde s msg ↔ ∃ raw, d.Has raw ∧ Quotes pingWord raw)) ∧
    ((∀ d, parse p = some d → Unmistakable unescape d) →
      (parse p = none → ¬ "\"PING\"".toList <:+: p.toList) →
      (Pongs serde s msg ↔ (serde.fromStr p).bind (Json.strAt "type") = some msgPing)) := by
  have hquoted : quoted pingWord = "\"PING\"".toList := by decide
  have hpongs : Pongs serde s msg ↔ quoted pingWord <:+: p.toList :=
    (pongs_iff_isPing hns s).trans (isPing_iff hns hp)
  have hdoc (d : Doc) (hd : parse p = some d) :
      Pongs serde s msg ↔ ∃ raw, d.Has raw ∧ Quotes pingWord raw :=
    hpongs.trans (quoted_infix_iff word_ping (hreads.text hd))
  refine ⟨hquoted ▸ hpongs, hdoc, fun hun hnone => ?_⟩
  cases hd : parse p with
  | none =>
      rw [hreads.fromStr.2 hd, hpongs, hquoted]
      exact iff_of_false (hnone hd) (by simp)
  | some d =>
      cases hjson : serde.fromStr p with
      | none =>
          rw [hreads.fromStr.1 hjson] at hd
          contradiction
      | some json =>
          rw [hdoc d hd, (hun d hd).quotes_iff hreads.plain, Option.bind_some,
            hreads.strAt hd hjson]

/-! ## a world with one document -/

/-- Members that are plain strings, as an object is written without spaces. -/
def plainEntries (members : List (List Char × List Char)) : List Entry :=
  members.map fun m => ⟨[], m.1, [], .string m.2, [.string m.2]⟩

def plainDoc (members : List (List Char × List Char)) : Doc :=
  .object ((plainEntries members).map fun e => (e.name, e.value))

/-- The text of such an object. -/
def plainText (members : List (List Char × List Char)) : List Char :=
  render (.char '\x7b' :: (blank [] ++
    ([.char ','].intercalate ((plainEntries members).map Entry.text) ++ [.char '\x7d'])))

def plainSerde (members : List (List Char × List Char)) : SerdeJson :=
  .ofText (String.ofList (plainText members))
    (.object (members.map fun m => (String.ofList m.1, .string (String.ofList m.2))))

def plainParse (members : List (List Char × List Char)) (p : String) : Option Doc :=
  if p = String.ofList (plainText members) then some (plainDoc members) else none

/-- A heartbeat with such a payload. -/
def plainMsg (members : List (List Char × List Char)) : CastMessage :=
  buildMessage nsHeartbeat receiverId senderId (String.ofList (plainText members))

variable {members : List (List Char × List Char)}

theorem textOf_plainDoc (h : ∀ m ∈ members, Plain m.1 ∧ Plain m.2) :
    (plainDoc members).TextOf (plainText members) := by
  refine ⟨_, .object (plainEntries members) (by simp [Blank]) ?_ ?_, rfl⟩
  · intro e he
    obtain ⟨m, hm, rfl⟩ := List.mem_map.1 he
    exact ⟨by simp [Blank], written_of_plain (h m hm).1, by simp [Blank]⟩
  · intro e he
    obtain ⟨m, hm, rfl⟩ := List.mem_map.1 he
    exact .string (written_of_plain (h m hm).2)

/-- What reads one document, and reads its members right. -/
theorem readsDocs_plain (h : ∀ m ∈ members, Plain m.1 ∧ Plain m.2)
    (hjson : ∀ json, (plainSerde members).fromStr (String.ofList (plainText members)) = some json →
      ∀ key, json.strAt key = ((plainDoc members).stringAt String.ofList key).map String.ofList) :
    ReadsDocs (plainSerde members) (plainParse members) String.ofList where
  text := by
    intro p d hd
    unfold plainParse at hd
    split_ifs at hd with hp
    obtain rfl := Option.some.inj hd
    rw [hp, String.toList_ofList]
    exact textOf_plainDoc h
  fromStr := by
    intro p
    simp only [plainSerde, SerdeJson.ofText, plainParse]
    split_ifs <;> simp
  strAt := by
    intro p d json hd hp key
    unfold plainParse at hd
    split_ifs at hd with heq
    subst heq
    obtain rfl := Option.some.inj hd
    exact hjson json hp key
  plain _ := rfl

/-- The members of every PING. -/
def pingMembers : List (List Char × List Char) := [(['t', 'y', 'p', 'e'], ['P', 'I', 'N', 'G'])]

/-- A PONG that names a PING. -/
def pongMembers : List (List Char × List Char) :=
  [(['t', 'y', 'p', 'e'], ['P', 'O', 'N', 'G']), (['t', 'o'], ['P', 'I', 'N', 'G'])]

example : String.ofList (plainText pongMembers) = "\x7b\"type\":\"PONG\",\"to\":\"PING\"\x7d" := by
  decide

theorem readsDocs_ping :
    ReadsDocs (plainSerde pingMembers) (plainParse pingMembers) String.ofList := by
  refine readsDocs_plain (by decide) fun json hjson key => ?_
  obtain rfl := Option.some.inj ((SerdeJson.fromStr_ofText _ _).symm.trans hjson)
  by_cases htype : key = "type"
  · subst htype
    rfl
  · have hne : "type" ≠ key := Ne.symm htype
    simp [Json.strAt, Json.get, plainDoc, plainEntries, pingMembers, Doc.stringAt, List.lookup_cons,
      beq_eq_false_iff_ne.2 htype, hne]

theorem readsDocs_pong :
    ReadsDocs (plainSerde pongMembers) (plainParse pongMembers) String.ofList := by
  refine readsDocs_plain (by decide) fun json hjson key => ?_
  obtain rfl := Option.some.inj ((SerdeJson.fromStr_ofText _ _).symm.trans hjson)
  by_cases htype : key = "type"
  · subst htype
    rfl
  by_cases hto : key = "to"
  · subst hto
    rfl
  · have hne : "type" ≠ key := Ne.symm htype
    have hne' : "to" ≠ key := Ne.symm hto
    simp [Json.strAt, Json.get, plainDoc, plainEntries, pongMembers, Doc.stringAt, List.lookup_cons,
      beq_eq_false_iff_ne.2 htype, beq_eq_false_iff_ne.2 hto, hne, hne']

theorem unmistakable_ping : Unmistakable String.ofList (plainDoc pingMembers) := by
  refine ⟨fun raw helse => ?_, fun raw hraw hslash => ?_⟩
  · generalize hd : plainDoc pingMembers = d at helse
    cases helse with
    | name hmem =>
        obtain rfl := Doc.object.inj hd
        obtain rfl : raw = ['t', 'y', 'p', 'e'] := congrArg Prod.fst (List.mem_singleton.1 hmem)
        unfold Quotes pingWord
        decide
    | value front hhas hother =>
        -- the only member is the type
        have hlist := Doc.object.inj hd
        simp only [plainEntries, pingMembers, List.map_cons, List.map_nil, List.cons_eq_append_iff,
          List.cons.injEq, Prod.mk.injEq, List.nil_eq, List.append_eq_nil_iff, reduceCtorEq,
          and_false,
          exists_const, or_false] at hlist
        obtain ⟨-, ⟨rfl, rfl⟩, rfl⟩ := hlist
        rcases hother rfl with ⟨m, hm, -⟩ | hnone <;> contradiction
    | _ => contradiction
  · obtain rfl : ['P', 'I', 'N', 'G'] = raw := Option.some.inj hraw
    exact absurd hslash (by decide)

/-- The PING that every device sends is answered, by either reading. -/
theorem pongs_ping : Pongs (plainSerde pingMembers) (.new .new 0) (plainMsg pingMembers) ↔
    ((plainSerde pingMembers).fromStr (String.ofList (plainText pingMembers))).bind
    (Json.strAt "type") =
      some msgPing := by
  refine (pongs_iff readsDocs_ping rfl rfl _).2.2 (fun d hd => ?_) fun hnone => ?_
  · obtain rfl := Option.some.inj ((if_pos rfl).symm.trans hd)
    exact unmistakable_ping
  · have hsome : some (plainDoc pingMembers) = none := (if_pos rfl).symm.trans hnone
    contradiction

/-- It is answered for the PING it names. -/
theorem named_ping_answered : ¬ ∀ (serde : SerdeJson) (parse : String → Option Doc)
    (unescape : List Char → String), ReadsDocs serde parse unescape →
    ∀ (s : Router) (msg : CastMessage), msg.ns = nsHeartbeat → (Pongs serde s msg ↔
      ((msg.payloadUtf8.bind serde.fromStr).bind (Json.strAt "type") = some msgPing)) := by
  intro h
  have hiff := h _ _ _ readsDocs_pong (.new .new 0) (plainMsg pongMembers) rfl
  have hpongs : Pongs (plainSerde pongMembers) (.new .new 0) (plainMsg pongMembers) :=
    ((pongs_iff_isPing rfl _).trans (isPing_iff rfl rfl)).2 (by decide)
  have htype := hiff.1 hpongs
  have hpong : some "PONG" = some msgPing := htype
  exact absurd hpong (by decide)

end Oxicast

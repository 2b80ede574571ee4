import Mathlib.Data.List.Basic

/-!
# Oxicast.JsonText

The text of a JSON document, and where a word in double quotes occurs in it.

A text is a sequence of tokens: the strings and the characters around them.  A
string stands there as it is written (`Written`), escapes included; of the
grammar of numbers and escapes no more is kept than where they end, so every
JSON text is the text of a document (`Value`).

A word in quotes occurs in such a text where a string is written like it, or
ends in an escaped quote and the word (`quoted_infix_render_iff`).
-/

namespace Oxicast.JsonText

def quote : Char := '\x22'

def backslash : Char := '\x5c'

def spaces : List Char := [' ', '\t', '\n', '\r']

/-- What may follow a string. -/
def separators : List Char := [',', ':', ']', '\x7d'] ++ spaces

/-! ## strings -/

/-- The characters between the quotes of a string. -/
inductive Written : List Char → Prop
  | nil : Written []
  | plain {c : Char} {cs : List Char} : c ≠ quote → c ≠ backslash → Written cs → Written (c :: cs)
  | escape (c : Char) {cs : List Char} : Written cs → Written (backslash :: c :: cs)

/-- Characters that stand for themselves. -/
def Plain (cs : List Char) : Prop := ∀ c ∈ cs, c ≠ quote ∧ c ≠ backslash

instance : DecidablePred Plain := fun cs => List.decidableBAll _ cs

/-- Plain characters, none of which may follow a string. -/
def Word (word : List Char) : Prop := ∀ c ∈ word, c ≠ quote ∧ c ≠ backslash ∧ c ∉ separators

instance : DecidablePred Word := fun word => List.decidableBAll _ word

/-- The word in quotes. -/
def quoted (word : List Char) : List Char := quote :: word ++ [quote]

/-- The string is written like the word, or ends in an escaped quote and the word. -/
def Quotes (word raw : List Char) : Prop := raw = word ∨ backslash :: quote :: word <:+ raw

variable {word raw rest : List Char}

/-- A quote ends a string. -/
theorem Written.head_ne_quote {c : Char} {cs : List Char} (h : Written (c :: cs)) : c ≠ quote := by
  cases h with
  | plain hc => exact hc
  | escape => decide

theorem written_of_plain {cs : List Char} (h : Plain cs) : Written cs := by
  induction cs with
  | nil => exact .nil
  | cons c cs ih =>
      obtain ⟨hquote, hslash⟩ := h c List.mem_cons_self
      exact .plain hquote hslash (ih fun c' hc => h c' (List.mem_cons_of_mem _ hc))

/-- A string that starts with a word and its end is the word. -/
theorem prefix_written_iff (hword : Word word) (hraw : Written raw) :
    word ++ [quote] <+: raw ++ quote :: rest ↔ raw = word := by
  induction word generalizing raw with
  | nil =>
      cases raw with
      | nil => simp
      | cons c cs => simp [hraw.head_ne_quote.symm]
  | cons a word ih =>
      obtain ⟨ha, hslash, -⟩ := hword a List.mem_cons_self
      have ih {raw : List Char} := @ih raw fun c hc => hword c (List.mem_cons_of_mem _ hc)
      cases hraw with
      | nil => simp [ha]
      | @plain c cs hc hc' hcs =>
          rw [List.cons_append, List.cons_append, List.cons_prefix_cons, ih hcs, List.cons.injEq,
            eq_comm]
      | escape c hcs => simp [hslash, hslash.symm]

/-- Inside a string and its end, the word in quotes stands only behind an escape. -/
theorem quoted_infix_written_iff (hword : Word word) (hraw : Written raw)
    (hrest : ¬ word ++ [quote] <+: rest) :
    quoted word <:+: raw ++ quote :: rest ↔
      backslash :: quote :: word <:+ raw ∨ quoted word <:+: rest := by
  induction hraw with
  | nil =>
      rw [List.nil_append, List.infix_cons_iff, quoted, List.cons_append, List.cons_prefix_cons]
      simp [hrest]
  | @plain c cs hc hc' hcs ih =>
      have hne : quote ≠ c := hc.symm
      have hne' : backslash ≠ c := hc'.symm
      rw [List.cons_append, List.infix_cons_iff, List.suffix_cons_iff, ih, quoted, List.cons_append,
        List.cons_prefix_cons, List.cons.injEq]
      simp [hne, hne']
  | @escape c cs hcs ih =>
      have hslash : quote ≠ backslash := by decide
      have hquote : cs ≠ quote :: word := by
        rintro rfl
        exact hcs.head_ne_quote rfl
      -- the escaped character may be a quote
      have hescaped : quoted word <+: c :: (cs ++ quote :: rest) ↔ quote = c ∧ cs = word := by
        rw [quoted, List.cons_append, List.cons_prefix_cons, prefix_written_iff hword hcs]
      rw [List.cons_append, List.cons_append, List.infix_cons_iff, List.infix_cons_iff,
        hescaped, ih,
        List.suffix_cons_iff, List.suffix_cons_iff, quoted, List.cons_append, List.cons_prefix_cons]
      simp [hslash, hquote, eq_comm, or_assoc]

/-! ## tokens -/

inductive Token where
  | char (c : Char)
  | string (raw : List Char)

def Token.text : Token → List Char
  | .char c => [c]
  | .string raw => quote :: raw ++ [quote]

/-- The text of a sequence of tokens. -/
def render (ts : List Token) : List Char := ts.flatMap Token.text

/-- The sequence is empty or starts with a separator. -/
def Separated (ts : List Token) : Prop := ∀ t ∈ ts.head?, ∃ c ∈ separators, t = .char c

/-- Strings are well written and followed by a separator, and quotes stand nowhere else. -/
def Closed : List Token → Prop
  | [] => True
  | .char c :: ts => c ≠ quote ∧ Closed ts
  | .string raw :: ts => Written raw ∧ Separated ts ∧ Closed ts

variable {ts us : List Token}

/-- Behind the end of a string there is no word. -/
theorem not_word_prefix_render (hword : Word word) (h : Separated ts) :
    ¬ word ++ [quote] <+: render ts := by
  have hquote : quote ∉ separators := by decide
  cases ts with
  | nil => simp [render]
  | cons t ts =>
      obtain ⟨c, hc, rfl⟩ := h t (by simp)
      have hrender : render (.char c :: ts) = c :: render ts := rfl
      rw [hrender]
      cases word with
      | nil =>
          rw [List.nil_append, List.cons_prefix_cons]
          rintro ⟨rfl, -⟩
          exact hquote hc
      | cons a word =>
          rw [List.cons_append, List.cons_prefix_cons]
          rintro ⟨rfl, -⟩
          exact (hword a List.mem_cons_self).2.2 hc

/-- **A word in quotes** occurs in a text exactly where one of its strings is
written like it, or ends in an escaped quote and the word. -/
theorem quoted_infix_render_iff (hword : Word word) (h : Closed ts) :
    quoted word <:+: render ts ↔ ∃ raw, .string raw ∈ ts ∧ Quotes word raw := by
  induction ts with
  | nil => simp [render, quoted]
  | cons t ts ih =>
      cases t with
      | char c =>
          obtain ⟨hc, hts⟩ := h
          have hrender : render (.char c :: ts) = c :: render ts := rfl
          rw [hrender, List.infix_cons_iff, ih hts, quoted, List.cons_append, List.cons_prefix_cons]
          simp [hc.symm]
      | string raw =>
          obtain ⟨hraw, hsep, hts⟩ := h
          have hrender : render (.string raw :: ts) = quote :: (raw ++ quote :: render ts) := by
            simp [render, Token.text]
          have hopen : quoted word <+: quote :: (raw ++ quote :: render ts) ↔ raw = word := by
            rw [quoted, List.cons_append, List.cons_prefix_cons, prefix_written_iff hword hraw]
            simp
          rw [hrender, List.infix_cons_iff, hopen,
            quoted_infix_written_iff hword hraw (not_word_prefix_render hword hsep), ih hts]
          simp [Quotes, or_and_right, exists_or, or_assoc]

/-! ## documents -/

/-- A document as it is written: names and strings between their quotes, and
`true`, `false`, `null` and the numbers as atoms. -/
inductive Doc where
  | atom (text : List Char)
  | string (raw : List Char)
  | array (items : List Doc)
  | object (members : List (List Char × Doc))

/-- A string of the document, a name or a value at any depth. -/
inductive Doc.Has : Doc → List Char → Prop
  | string (raw : List Char) : Has (.string raw) raw
  | item {items : List Doc} {d : Doc} {raw : List Char} :
      d ∈ items → Has d raw → Has (.array items) raw
  | name {members : List (List Char × Doc)} {d : Doc} {raw : List Char} :
      (raw, d) ∈ members → Has (.object members) raw
  | value {members : List (List Char × Doc)} {name raw : List Char} {d : Doc} :
      (name, d) ∈ members → Has d raw → Has (.object members) raw

/-- One member of an object: its name with the space around it, and its value. -/
structure Entry where
  before : List Char
  name : List Char
  after : List Char
  value : Doc
  tokens : List Token

def blank (cs : List Char) : List Token := cs.map .char

def Entry.text (e : Entry) : List Token :=
  blank e.before ++ .string e.name :: (blank e.after ++ .char ':' :: e.tokens)

/-- The characters are spaces. -/
def Blank (cs : List Char) : Prop := ∀ c ∈ cs, c ∈ spaces

/-- The tokens are those of the document. -/
inductive Value : Doc → List Token → Prop
  | atom {text : List Char} : text ≠ [] → (∀ c ∈ text, c.isAlphanum ∨ c ∈ ['+', '-', '.']) →
      Value (.atom text) (text.map .char)
  | string {raw : List Char} : Written raw → Value (.string raw) [.string raw]
  | array (items : List (Doc × List Token)) {inner : List Char} : Blank inner →
      (∀ i ∈ items, Value i.1 i.2) →
      Value (.array (items.map Prod.fst))
        (.char '[' :: (blank inner ++
          ([.char ','].intercalate (items.map Prod.snd) ++ [.char ']'])))
  | object (entries : List Entry) {inner : List Char} : Blank inner →
      (∀ e ∈ entries, Blank e.before ∧ Written e.name ∧ Blank e.after) →
      (∀ e ∈ entries, Value e.value e.tokens) →
      Value (.object (entries.map fun e => (e.name, e.value)))
        (.char '\x7b' :: (blank inner ++
          ([.char ','].intercalate (entries.map Entry.text) ++ [.char '\x7d'])))
  | space {before after : List Char} {d : Doc} {ts : List Token} : Blank before → Blank after →
      Value d ts → Value d (blank before ++ (ts ++ blank after))

theorem ne_quote_of_mem_spaces {c : Char} (h : c ∈ spaces) : c ≠ quote := by
  rintro rfl
  exact absurd h (by decide)

theorem closed_map_char {cs : List Char} (h : ∀ c ∈ cs, c ≠ quote) (hts : Closed ts) :
    Closed (cs.map .char ++ ts) := by
  induction cs with
  | nil => exact hts
  | cons c cs ih => exact ⟨h c List.mem_cons_self, ih fun c' hc => h c' (List.mem_cons_of_mem _ hc)⟩

theorem closed_blank {cs : List Char} (h : Blank cs) (hts : Closed ts) : Closed (blank cs ++ ts) :=
  closed_map_char (fun c hc => ne_quote_of_mem_spaces (h c hc)) hts

theorem separated_blank {cs : List Char} (h : Blank cs) (hts : Separated ts) :
    Separated (blank cs ++ ts) := by
  cases cs with
  | nil => exact hts
  | cons c cs =>
      intro t ht
      obtain rfl : .char c = t := by simpa [blank] using ht
      exact ⟨c, List.mem_append_right _ (h c List.mem_cons_self), rfl⟩

theorem separated_char {c : Char} (h : c ∈ separators) (ts : List Token) :
    Separated (.char c :: ts) := by
  intro t ht
  obtain rfl : .char c = t := by simpa using ht
  exact ⟨c, h, rfl⟩

theorem Closed.append (h : Closed ts) (hus : Closed us) (hsep : Separated us) :
    Closed (ts ++ us) := by
  induction ts with
  | nil => exact hus
  | cons t ts ih =>
      cases t with
      | char c => exact ⟨h.1, ih h.2⟩
      | string raw =>
          refine ⟨h.1, ?_, ih h.2.2⟩
          cases ts with
          | nil => exact hsep
          | cons t ts => exact h.2.1

theorem closed_intercalate {l : List (List Token)} (h : ∀ ts ∈ l, Closed ts) (hus : Closed us)
    (hsep : Separated us) : Closed ([.char ','].intercalate l ++ us) := by
  induction l with
  | nil => exact hus
  | cons ts l ih =>
      have ih := ih fun ts' hts => h ts' (List.mem_cons_of_mem _ hts)
      have hts := h ts List.mem_cons_self
      cases l with
      | nil =>
          rw [List.intercalate_singleton]
          exact hts.append hus hsep
      | cons ts' l =>
          rw [List.intercalate_cons_cons, List.append_assoc, List.append_assoc]
          exact hts.append ⟨by decide, ih⟩ (separated_char (by decide) _)

/-- The tokens of a document are well separated. -/
theorem Value.closed {d : Doc} (h : Value d ts) : Closed ts := by
  induction h with
  | @atom text _ hchars =>
      have hquote (c : Char) (hc : c ∈ text) : c ≠ quote := by
        rintro rfl
        exact absurd (hchars quote hc) (by decide)
      simpa using @closed_map_char [] text hquote trivial
  | string hraw => exact ⟨hraw, by simp [Separated], trivial⟩
  | array items hinner _ ih =>
      refine ⟨by decide, closed_blank hinner (closed_intercalate ?_ ⟨by decide, trivial⟩ ?_)⟩
      · intro ts hts
        obtain ⟨i, hi, rfl⟩ := List.mem_map.1 hts
        exact ih i hi
      · exact separated_char (by decide) _
  | object entries hinner hnames _ ih =>
      refine ⟨by decide, closed_blank hinner (closed_intercalate ?_ ⟨by decide, trivial⟩ ?_)⟩
      · intro ts hts
        obtain ⟨e, he, rfl⟩ := List.mem_map.1 hts
        obtain ⟨hbefore, hname, hafter⟩ := hnames e he
        have hcolon : Closed (blank e.after ++ .char ':' :: e.tokens) :=
          closed_blank hafter ⟨by decide, ih e he⟩
        exact closed_blank hbefore
          ⟨hname, separated_blank hafter (separated_char (by decide) _), hcolon⟩
      · exact separated_char (by decide) _
  | space hbefore hafter _ ih =>
      have hlast := closed_blank hafter (show Closed [] from trivial)
      rw [List.append_nil] at hlast
      have hsep := separated_blank hafter (show Separated [] by simp [Separated])
      rw [List.append_nil] at hsep
      exact closed_blank hbefore (ih.append hlast hsep)

@[simp] theorem string_notMem_blank (cs : List Char) : .string raw ∉ blank cs := by simp [blank]

theorem string_mem_intercalate (l : List (List Token)) :
    .string raw ∈ [.char ','].intercalate l ↔ ∃ ts ∈ l, .string raw ∈ ts := by
  induction l with
  | nil => simp
  | cons ts l ih =>
      cases l with
      | nil => simp
      | cons ts' l =>
          rw [List.intercalate_cons_cons, List.mem_append, List.mem_append, ih,
            List.exists_mem_cons_iff]
          simp

/-- The string tokens of a document are its strings. -/
theorem Value.string_mem_iff {d : Doc} (h : Value d ts) : .string raw ∈ ts ↔ d.Has raw := by
  induction h with
  | atom => exact iff_of_false (by simp) (by rintro ⟨⟩)
  | @string raw' =>
      rw [List.mem_singleton]
      constructor
      · rintro ⟨⟩
        exact .string raw
      · rintro ⟨⟩
        rfl
  | array items _ _ ih =>
      have hitems : .string raw ∈ [.char ','].intercalate (items.map Prod.snd) ↔
          ∃ i ∈ items, i.1.Has raw := by
        simp only [string_mem_intercalate, List.mem_map, exists_exists_and_eq_and]
        exact exists_congr fun i => and_congr_right fun hi => ih i hi
      rw [List.mem_cons, List.mem_append, List.mem_append, hitems]
      simp only [string_notMem_blank, reduceCtorEq, false_or, List.mem_singleton, or_false]
      constructor
      · rintro ⟨i, hi, hraw⟩
        exact .item (List.mem_map_of_mem hi) hraw
      · intro hraw
        cases hraw with
        | item hd hraw =>
            obtain ⟨i, hi, rfl⟩ := List.mem_map.1 hd
            exact ⟨i, hi, hraw⟩
  | object entries _ _ _ ih =>
      have hentries : .string raw ∈ [.char ','].intercalate (entries.map Entry.text) ↔
          ∃ e ∈ entries, raw = e.name ∨ e.value.Has raw := by
        simp only [string_mem_intercalate, List.mem_map, exists_exists_and_eq_and]
        refine exists_congr fun e => and_congr_right fun he => ?_
        simp [Entry.text, ih e he]
      rw [List.mem_cons, List.mem_append, List.mem_append, hentries]
      simp only [string_notMem_blank, reduceCtorEq, false_or, List.mem_singleton, or_false]
      constructor
      · rintro ⟨e, he, rfl | hraw⟩
        · exact .name (List.mem_map_of_mem he)
        · exact .value (List.mem_map_of_mem he) hraw
      · intro hraw
        cases hraw with
        | name hmem =>
            obtain ⟨e, he, heq⟩ := List.mem_map.1 hmem
            exact ⟨e, he, .inl (congrArg Prod.fst heq).symm⟩
        | value hmem hraw =>
            obtain ⟨e, he, heq⟩ := List.mem_map.1 hmem
            obtain rfl := congrArg Prod.snd heq
            exact ⟨e, he, .inr hraw⟩
  | space _ _ _ ih => simp [ih]

/-- A text of the document. -/
def Doc.TextOf (d : Doc) (text : List Char) : Prop := ∃ ts, Value d ts ∧ render ts = text

/-- In the text of a document. -/
theorem quoted_infix_iff {d : Doc} {text : List Char} (hword : Word word) (h : d.TextOf text) :
    quoted word <:+: text ↔ ∃ raw, d.Has raw ∧ Quotes word raw := by
  obtain ⟨ts, hts, rfl⟩ := h
  rw [quoted_infix_render_iff hword hts.closed]
  exact exists_congr fun raw => and_congr_left' hts.string_mem_iff

/-! ## the string under a name -/

section Members

variable (unescape : List Char → String) (key : String)

def Doc.raw? : Doc → Option (List Char)
  | .string raw => some raw
  | _ => none

/-- The string under a name of an object; of several members of that name the
last one counts. -/
def Doc.stringAt : Doc → Option (List Char)
  | .object members =>
      (members.reverse.find? fun m => unescape m.1 = key).bind fun m => m.2.raw?
  | _ => none

/-- A string of the document other than the one under the name. -/
inductive Doc.Elsewhere : Doc → List Char → Prop
  | string (raw : List Char) : Elsewhere (.string raw) raw
  | array {items : List Doc} {raw : List Char} :
      (Doc.array items).Has raw → Elsewhere (.array items) raw
  | name {members : List (List Char × Doc)} {d : Doc} {raw : List Char} :
      (raw, d) ∈ members → Elsewhere (.object members) raw
  | value (front : List (List Char × Doc)) {name raw : List Char} {d : Doc}
      {back : List (List Char × Doc)} : d.Has raw →
      (unescape name = key → (∃ m ∈ back, unescape m.1 = key) ∨ d.raw? = none) →
      Elsewhere (.object (front ++ (name, d) :: back)) raw

variable {unescape key} {d : Doc}

theorem Doc.has_of_raw? (h : d.raw? = some raw) : d.Has raw := by
  cases d with
  | string raw' =>
      obtain rfl := Option.some.inj h
      exact .string raw'
  | _ => contradiction

theorem Doc.has_of_stringAt (h : d.stringAt unescape key = some raw) : d.Has raw := by
  cases d with
  | object members =>
      obtain ⟨m, hm, hraw⟩ := Option.bind_eq_some_iff.1 h
      exact .value (List.mem_reverse.1 (List.mem_of_find?_eq_some hm)) (has_of_raw? hraw)
  | _ => contradiction

/-- A string is the one under the name, or another one. -/
theorem Doc.Has.elsewhere_or (h : d.Has raw) :
    d.Elsewhere unescape key raw ∨ d.stringAt unescape key = some raw := by
  cases h with
  | string => exact .inl (.string raw)
  | item hmem hraw => exact .inl (.array (.item hmem hraw))
  | name hmem => exact .inl (.name hmem)
  | @value members name _ v hmem hraw =>
      obtain ⟨front, back, rfl⟩ := List.append_of_mem hmem
      by_cases hother : unescape name = key → (∃ m ∈ back, unescape m.1 = key) ∨ v.raw? = none
      · exact .inl (.value front hraw hother)
      -- the last member of the name, and a string
      obtain ⟨hname, hrest⟩ := Classical.not_imp.1 hother
      obtain ⟨hlast, hstring⟩ := not_or.1 hrest
      have hback : back.reverse.find? (fun m => unescape m.1 = key) = none := by
        simpa using hlast
      cases v with
      | string raw' =>
          cases hraw
          right
          simp [Doc.stringAt, Doc.raw?, hback, hname]
      | _ => exact absurd rfl hstring

end Members

end Oxicast.JsonText

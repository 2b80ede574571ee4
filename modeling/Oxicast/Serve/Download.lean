import Oxicast.Serve.Range

/-!
# Oxicast.Serve.Download

A file fetched piece by piece.

A player asks for what it does not have yet, the whole rest or a piece of it, and
the connection may break at any byte of the answer.
-/

namespace Oxicast

/-! ## headers -/

/-- A character that may stand in a header. -/
def plainChar (c : Char) : Bool := 32 ≤ c.toNat ∧ c.toNat < 127

theorem toStr_headerOf {text : String} (h : text.toList.all plainChar) :
    (headerOf text).toStr = some text := by
  have hchar (c : Char) (hc : c ∈ text.toList) : 32 ≤ c.toNat ∧ c.toNat < 127 := by
    simpa [plainChar] using List.all_eq_true.1 h c hc
  have hbyte (c : Char) (hc : c ∈ text.toList) : (UInt8.ofNat c.toNat).toNat = c.toNat := by
    rw [UInt8.toNat_ofNat']
    have := (hchar c hc).2
    omega
  have hall : (headerOf text).all fun b => 32 ≤ b ∧ b < 127 ∨ b = 9 := by
    rw [headerOf, List.all_map, List.all_eq_true]
    intro c hc
    have hc' := hchar c hc
    simp only [Function.comp_apply, decide_eq_true_eq, UInt8.le_iff_toNat_le, UInt8.lt_iff_toNat_lt,
      hbyte c hc]
    exact .inl hc'
  have hback : (headerOf text).map (fun b => Char.ofNat b.toNat) = text.toList := by
    rw [headerOf, List.map_map]
    refine (List.map_congr_left fun c hc => ?_).trans (List.map_id _)
    rw [Function.comp_apply, hbyte c hc, Char.ofNat_toNat]
    rfl
  rw [HeaderValue.toStr, if_pos hall, hback, String.ofList_toList]

theorem plain_repr (n : Nat) : n.repr.toList.all plainChar := by
  rw [Nat.toList_repr, List.all_eq_true]
  intro c hc
  have hdigit := (isNumeral_toDigits n).2 c hc
  simp only [Char.isDigit, Bool.and_eq_true, decide_eq_true_eq] at hdigit
  simp only [plainChar, decide_eq_true_eq]
  have hlow := UInt32.le_iff_toNat_le.1 hdigit.1
  have hhigh := UInt32.le_iff_toNat_le.1 hdigit.2
  have hlow' : 48 ≤ c.toNat := hlow
  have hhigh' : c.toNat ≤ 57 := hhigh
  omega

/-! ## a file in pieces -/

/-- A request of a player that has the bytes in front of a position. -/
inductive Fetch where
  /-- `bytes=n-` -/
  | rest
  /-- `bytes=n-m`, for at most so many bytes more than one -/
  | piece (more : Nat)

/-- The `Range` header of a request. -/
def Fetch.text (start : Nat) : Fetch → String
  | .rest => "bytes=" ++ start.repr ++ "-"
  | .piece more => "bytes=" ++ start.repr ++ "-" ++ (start + more).repr

def Fetch.header (start : Nat) (f : Fetch) : HeaderValue := headerOf (f.text start)

/-- The bytes a response carries. -/
def Body.data : Body → List UInt8
  | .bytes data => data
  | .text _ => []

/-- What a player has after a request, of whose answer `cut` bytes arrive. -/
def fetch (answer : HeaderValue → Response) (got : List UInt8) (x : Fetch × Nat) : List UInt8 :=
  got ++ (answer (x.1.header got.length)).body.data.take x.2

/-- What a player has after some requests. -/
def download (answer : HeaderValue → Response) (fetches : List (Fetch × Nat)) : List UInt8 :=
  fetches.foldl (fetch answer) []

/-- The last position a request names. -/
def Fetch.last (start size : Nat) : Fetch → Nat
  | .rest => size - 1
  | .piece more => start + more

theorem toStr_header (start : Nat) (f : Fetch) : (f.header start).toStr = some (f.text start) := by
  refine toStr_headerOf ?_
  cases f with
  | rest =>
      simp only [Fetch.text, String.toList_append, List.all_append, plain_repr, Bool.and_true]
      decide
  | piece more =>
      simp only [Fetch.text, String.toList_append, List.all_append, plain_repr, Bool.and_true]
      decide

/-- What follows the dash. -/
def Fetch.afterDash (start : Nat) : Fetch → List Char
  | .rest => []
  | .piece more => Nat.toDigits 10 (start + more)

theorem toList_text (start : Nat) (f : Fetch) :
    (f.text start).toList = "bytes=".toList ++ Nat.toDigits 10 start ++
      '-' :: f.afterDash start := by
  cases f with
  | rest => simp [Fetch.text, Fetch.afterDash, Nat.toList_repr]
  | piece more => simp [Fetch.text, Fetch.afterDash, Nat.toList_repr]

/-- The number a printed number parses to. -/
theorem toNat_of_parseU64 {n : Nat} {a : UInt64} (h : parseU64 (Nat.toDigits 10 n) = some a) :
    a.toNat = n := by
  rw [← (parseU64_of_isNumeral (isNumeral_toDigits n)).1 h, numeralValue_toDigits]

theorem toNat_ofNat {n : Nat} (h : n < 2 ^ 64) : (UInt64.ofNat n).toNat = n :=
  UInt64.toNat_ofNat_of_lt' h

theorem parseU64_ofNat {n : Nat} (h : n < 2 ^ 64) :
    parseU64 (Nat.toDigits 10 n) = some (UInt64.ofNat n) := by
  rw [parseU64_of_isNumeral (isNumeral_toDigits n), numeralValue_toDigits, toNat_ofNat h]

/-- What `parse_range` reads of a request is what it names. -/
theorem parseRange_text {size : UInt64} {start : Nat} {f : Fetch} {a b : UInt64}
    (h : parseRange (f.text start) size = some (a, b)) :
    a.toNat = start ∧ b.toNat = f.last start size.toNat := by
  obtain ⟨hsize, first, last, htext, hdash, hreads⟩ := parseRange_eq_some_iff.1 h
  have hdash' : '-' ∉ Nat.toDigits 10 start := (isNumeral_toDigits start).not_mem rfl
  rw [toList_text, List.append_assoc, List.append_assoc] at htext
  have hsplit := splitn2_eq_pair_iff.2 ⟨hdash', (List.append_cancel_left htext).symm⟩
  rw [splitn2_eq_pair_iff.2 ⟨hdash, rfl⟩, List.cons.injEq, List.cons.injEq] at hsplit
  obtain ⟨hfirst', hlast', -⟩ := hsplit
  have hpred := toNat_pred hsize
  cases hreads with
  | between hfirst hlast _ _ =>
      rw [hfirst'] at hfirst
      rw [hlast'] at hlast
      refine ⟨toNat_of_parseU64 hfirst, ?_⟩
      cases f with
      | rest => simp [Fetch.afterDash] at hlast
      | piece more => exact toNat_of_parseU64 hlast
  | onwards hfirst hstop _ _ =>
      rw [hfirst'] at hfirst
      refine ⟨toNat_of_parseU64 hfirst, ?_⟩
      cases f with
      | rest => rw [hstop, hpred, Fetch.last]
      | piece more => exact absurd hlast'.symm Nat.toDigits_ne_nil
  | suffix _ _ _ _ => exact absurd hfirst'.symm Nat.toDigits_ne_nil

/-- A request for something of the file is read. -/
theorem parseRange_inside {size : UInt64} {start : Nat} {f : Fetch} (hstart : start < size.toNat)
    (hlast : f.last start size.toNat < size.toNat) :
    ∃ a b, parseRange (f.text start) size = some (a, b) := by
  have hfits := size.toNat_lt
  have hsize : size ≠ 0 := by
    rintro rfl
    exact Nat.not_lt_zero _ hstart
  have hpred := toNat_pred hsize
  have hfirst := parseU64_ofNat (n := start) (by omega)
  have hstartNat : (UInt64.ofNat start).toNat = start := toNat_ofNat (by omega)
  have hdash : '-' ∉ Nat.toDigits 10 start := (isNumeral_toDigits start).not_mem rfl
  cases f with
  | rest =>
      refine ⟨_, _, parseRange_eq_some_iff.2 ⟨hsize, _, _, toList_text start .rest, hdash,
        .onwards hfirst rfl (UInt64.le_iff_toNat_le.2 ?_) (UInt64.lt_iff_toNat_lt.2 ?_)⟩⟩
      · omega
      · omega
  | piece more =>
      change start + more < size.toNat at hlast
      have hstop : (UInt64.ofNat (start + more)).toNat = start + more := toNat_ofNat (by omega)
      refine ⟨_, _, parseRange_eq_some_iff.2 ⟨hsize, _, _, toList_text start (.piece more), hdash,
        .between hfirst (parseU64_ofNat (by omega)) (UInt64.le_iff_toNat_le.2 ?_)
          (UInt64.lt_iff_toNat_lt.2 ?_)⟩⟩
      · omega
      · omega

/-! ## downloads -/

variable {disk : String → Except String OpenFile} {files : Option (String → Option FileEntry)}
  {id : String} {entry : FileEntry} {file : OpenFile}

/-- The answer to a request: the bytes it names, or nothing. -/
theorem Serves.data_of_fetch (h : Serves disk files id entry file) (start : Nat) (f : Fetch) :
    (Oxicast.serveFile disk files id (some (f.header start))).body.data =
      if start < file.contents.length ∧
        f.last start file.contents.length < file.contents.length then
        (file.contents.drop start).take (f.last start file.contents.length + 1 - start)
      else [] := by
  rw [h.serveFile]
  cases hrange : parseRange (f.text start) file.size with
  | none =>
      rw [OpenFile.serve_unsatisfiable (by rw [toStr_header, Option.bind_some, hrange]), if_neg]
      · rfl
      rintro ⟨hstart, hlast⟩
      rw [← file.toNat_size] at hstart hlast
      obtain ⟨a, b, hab⟩ := parseRange_inside hstart hlast
      rw [hrange] at hab
      cases hab
  | some ab =>
      obtain ⟨a, b⟩ := ab
      obtain ⟨ha, hb⟩ := parseRange_text hrange
      obtain ⟨hsize, _, _, _, _, hreads⟩ := parseRange_eq_some_iff.1 hrange
      obtain ⟨hle, hlt⟩ := hreads.inside hsize
      rw [UInt64.le_iff_toNat_le] at hle
      rw [UInt64.lt_iff_toNat_lt] at hlt
      rw [file.toNat_size] at hb hlt
      rw [OpenFile.serve_part (toStr_header start f) hrange h.seek, ha, ← hb, if_pos (by omega)]
      simp only [Answer.response, Body.data]
      congr 1
      omega

/-- How far a player is after a request. -/
def Fetch.next (size pos : Nat) (x : Fetch × Nat) : Nat :=
  if pos < size ∧ x.1.last pos size < size then pos + min x.2 (x.1.last pos size + 1 - pos) else pos

theorem fetch_take (h : Serves disk files id entry file) {pos : Nat}
    (hpos : pos ≤ file.contents.length)
    (x : Fetch × Nat) :
    fetch (fun header => serveFile disk files id (some header)) (file.contents.take pos) x =
      file.contents.take (Fetch.next file.contents.length pos x) := by
  rw [fetch, List.length_take, Nat.min_eq_left hpos, h.data_of_fetch, Fetch.next]
  split
  next hin =>
    rw [List.take_take, List.take_add]
  next => rw [List.take_nil, List.append_nil]

theorem next_le {size pos : Nat} (hpos : pos ≤ size) (x : Fetch × Nat) :
    Fetch.next size pos x ≤ size := by
  unfold Fetch.next
  split <;> omega

/-- A request for the rest leads to the end. -/
theorem next_rest {size pos : Nat} (hpos : pos ≤ size) :
    Fetch.next size pos (.rest, size) = size := by
  have hlast : Fetch.last pos size .rest = size - 1 := rfl
  rw [Fetch.next]
  split
  next hin =>
    simp only [hlast] at hin ⊢
    omega
  next hout =>
    simp only [hlast] at hout
    omega

/-- **Resumed downloads**: whatever pieces a player asks for and wherever the answers
are cut, what it has is an initial segment of the file, up to the position that the
requests within the file lead to; and one more request for the rest, all of whose
answer arrives, completes the file. -/
theorem download_resumed (h : Serves disk files id entry file) (fetches : List (Fetch × Nat)) :
    download (fun header => serveFile disk files id (some header)) fetches =
        file.contents.take (fetches.foldl (Fetch.next file.contents.length) 0) ∧
      download (fun header => serveFile disk files id (some header))
        (fetches ++ [(.rest, file.contents.length)]) = file.contents := by
  have hfront (pos : Nat) (hpos : pos ≤ file.contents.length) :
      fetches.foldl (Fetch.next file.contents.length) pos ≤ file.contents.length ∧
      fetches.foldl (fetch fun header => serveFile disk files id (some header))
          (file.contents.take pos) =
        file.contents.take (fetches.foldl (Fetch.next file.contents.length) pos) := by
    induction fetches generalizing pos with
    | nil => exact ⟨hpos, rfl⟩
    | cons x fetches ih =>
        rw [List.foldl_cons, List.foldl_cons, fetch_take h hpos]
        exact ih _ (next_le hpos x)
  obtain ⟨hle, hgot⟩ := hfront 0 (Nat.zero_le _)
  rw [List.take_zero] at hgot
  refine ⟨hgot, ?_⟩
  rw [download, List.foldl_append, hgot, List.foldl_cons, List.foldl_nil, fetch_take h hle,
    next_rest hle, List.take_length]

/-- A clip whose answer breaks twice, and a piece beyond its end. -/
theorem download_resumed_clip :
    download
        (fun header =>
          serveFile (fun _ => .ok clip) (some fun _ => some clipEntry) "0" (some header))
        [(.rest, 40), (.piece 9, 4), (.piece 99, 100)] = clip.contents.take 44 ∧
      download
        (fun header =>
          serveFile (fun _ => .ok clip) (some fun _ => some clipEntry) "0" (some header))
        ([(.rest, 40), (.piece 9, 4), (.piece 99, 100)] ++ [(.rest, 100)]) = clip.contents :=
  download_resumed clip_serves [(.rest, 40), (.piece 9, 4), (.piece 99, 100)]

end Oxicast

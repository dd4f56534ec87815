import Kronical.Core.Text
import Kronical.Lib.Transducer
import Kronical.Lib.Trimming
import Kronical.Lib.Utf8
import Kronical.Lib.Watch
import Kronical.Server.SnapshotPb
import Mathlib.Data.List.DropRight

/-!
# Snapshots over HTTP

The server sends a snapshot as the body of a response, or every new one as an event of a stream. The body
of the stream is sent in chunks, but its clients read it line by line and take no notice of that: the
sizes of the chunks and the ends of lines behind them are lines that are not part of an event. Wherever
the connection is cut, also inside a character, a client has printed the first of the snapshots that were
sent, and each as it was (`watch_prints_served`).

What serde_json, axum and hyper write is a parameter; `CompactWriter` and `HttpEncoding.Standard` say what
is relied on.
-/

namespace Kronical

/-! ### The libraries -/

def crlf : List Char := ['\r', '\n']

/-- `serde_json::to_string`: an object stands between braces, and control characters are escaped. -/
structure CompactWriter (render : Json → String) : Prop where
  braces : ∀ fields, ∃ inner, (render (.obj fields)).toList = '\x7b' :: inner ++ ['\x7d']
  printable : ∀ json, ∀ c ∈ (render json).toList, 0x20 ≤ c.toNat

/-- What hyper sends as a response with a JSON body, as the head of a stream and as a chunk of it, and what
axum writes for `Event::default().data(data)`. -/
structure HttpEncoding where
  response : String → List Char
  streamHead : List Char
  chunk : List Char → List Char
  event : String → List Char

/-- Lines with a name and a value each, and an empty one. -/
def IsHead (head : List Char) : Prop :=
  ∃ headers, headers ≠ [] ∧ (∀ line ∈ headers, line ≠ [] ∧ '\n' ∉ line) ∧
    head = headers.flatMap (· ++ crlf) ++ crlf

/-- The size of a chunk. -/
def IsSize (size : List Char) : Prop := size ≠ [] ∧ ∀ c ∈ size, c ∈ "0123456789abcdefABCDEF".toList

/-- HTTP/1.1 and the format of event streams. -/
structure HttpEncoding.Standard (encoding : HttpEncoding) : Prop where
  response : ∀ body, ∃ head, IsHead head ∧ encoding.response body = head ++ body.toList
  streamHead : IsHead encoding.streamHead
  chunk : ∀ content, content ≠ [] →
    ∃ size, IsSize size ∧ encoding.chunk content = size ++ crlf ++ content ++ crlf
  event : ∀ data, (∀ c ∈ data.toList, 0x20 ≤ c.toNat) →
    encoding.event data = "data: ".toList ++ data.toList ++ ['\n', '\n']

/-! ### The server -/

section

variable (encoding : HttpEncoding) (render : Json → String) (text : InstantText)
  (parse : String → Option Json)

/-- The response of `snapshot_handler`. -/
def snapshotResponse (snap : ServedSnapshot) : List Char := encoding.response (snap.body render text)

/-- The chunk with the events of these snapshots. -/
def eventChunk (snaps : List ServedSnapshot) : List Char :=
  encoding.chunk (snaps.flatMap fun snap => encoding.event (snap.body render text))

/-- The response of `stream_handler` so far. A chunk has one event or more. -/
def streamResponse (chunks : List (List ServedSnapshot)) : List Char :=
  encoding.streamHead ++ chunks.flatMap (eventChunk encoding render text)

/-! ### The clients -/

/-- `resp.find("\r\n\r\n")`, and what stands behind it. -/
def afterBlankLine : List Char → Option (List Char)
  | [] => none
  | c :: rest =>
    if (crlf ++ crlf).isPrefixOf (c :: rest) then some ((c :: rest).drop 4) else afterBlankLine rest

/-- `http_get_snapshot` on the text of what it receives. -/
def httpGetSnapshot (resp : List Char) : Except String ServedSnapshot :=
  match afterBlankLine resp with
  | some body =>
    match httpSnapshot text parse (String.ofList body) with
    | some snap => .ok snap
    | none => .error "parse snapshot JSON"
  | none => .error "invalid HTTP response from admin UDS"

/-- What `read_line` gives, call by call: a line, or an error where the bytes are no text. -/
def readLines (received : List UInt8) : List (Option (List Char)) :=
  (Lines.lines Utf8.newline received).map Utf8.decode

/-- The error of `read_line`. -/
def invalidData : String := "stream did not contain valid UTF-8"

/-- The lines behind the head. -/
def skipHeaders : List (Option (List Char)) → Except String (List (Option (List Char)))
  | [] => .error "closed before headers"
  | none :: _ => .error invalidData
  | some line :: rest => if line = crlf then .ok rest else skipHeaders rest

/-- The lines before the first error. -/
def readable : List (Option (List Char)) → List (List Char)
  | some line :: rest => line :: readable rest
  | _ => []

/-- A line of the stream: data is collected, and an empty line ends an event. -/
def sseLine (trimPayload : List Char → List Char) : Transducer (List Char) (List Char) String :=
  fun dataBuf line =>
    if "data:".toList.isPrefixOf line then (dataBuf ++ trimPayload (line.drop 5) ++ ['\n'], [])
    else if line = crlf ∨ line = ['\n'] then
      if dataBuf.isEmpty then (dataBuf, [])
      else ([], [String.ofList (dataBuf.rdropWhile isWhitespace)])
    else (dataBuf, [])

/-- The snapshots in the events, with the texts they are read from. Others are passed over. -/
def readEvents (events : List String) : List (String × ServedSnapshot) :=
  events.filterMap fun data => (httpSnapshot text parse data).map fun snap => (data, snap)

/-- The events in the lines behind the head. -/
def events (trimPayload : List Char → List Char) (lines : List (Option (List Char))) : List String :=
  (Transducer.run (sseLine trimPayload) [] (readable lines)).2

/-- `sse_watch_via_http` on what it receives until the connection is closed: the text and the snapshot of
each event, of which it prints the one or the other, and what it returns. -/
def sseWatchViaHttp (received : List UInt8) : List (String × ServedSnapshot) × Except String Unit :=
  match skipHeaders (readLines received) with
  | .ok lines =>
    (readEvents text parse (events (Trimming.trim isWhitespace) lines),
      if lines.all (·.isSome) then .ok () else .error invalidData)
  | .error e => ([], .error e)

/-- `run_monitor_loop` on what it receives over one connection: the snapshots it draws. -/
def monitorFrames (received : List UInt8) : List ServedSnapshot :=
  match skipHeaders (readLines received) with
  | .ok lines =>
    (readEvents text parse (events (fun payload => payload.rdropWhile isWhitespace) lines)).map Prod.snd
  | .error _ => []

end

section

variable {encoding : HttpEncoding} {render : Json → String} {text : InstantText}
  {parse : String → Option Json}

theorem newline_notMem_body (hrender : CompactWriter render) (snap : ServedSnapshot) :
    '\n' ∉ (snap.body render text).toList := fun h =>
  absurd (hrender.printable _ _ h) (by decide)

theorem body_ends (hrender : CompactWriter render) (text : InstantText) (snap : ServedSnapshot) :
    ∃ inner, (snap.body render text).toList = '\x7b' :: inner ++ ['\x7d'] :=
  hrender.braces _

/-! ### The lines that a client reads -/

theorem readLines_encode (chars : List Char) :
    readLines (Utf8.encode chars) = (Lines.lines '\n' chars).map some := by
  rw [readLines, Utf8.lines_encode, List.map_map]
  exact List.map_congr_left fun line _ => Utf8.decode_encode line

theorem readLines_append (chars : List Char) (rest : List UInt8) :
    readLines (Utf8.encode (chars ++ ['\n']) ++ rest) =
      (Lines.lines '\n' (chars ++ ['\n'])).map some ++ readLines rest := by
  rw [← readLines_encode, readLines, readLines, readLines, ← List.map_append, Utf8.encode_append]
  exact congrArg (List.map Utf8.decode) (Lines.lines_append_sep _ _)

theorem all_readLines {received : List UInt8} :
    (readLines received).all (·.isSome) = true ↔ ∃ chars, received = Utf8.encode chars := by
  constructor
  · intro hall
    have hflatten : (Lines.lines Utf8.newline received).flatten = received := Lines.lines_flatten _
    rw [← hflatten]
    rw [readLines, List.all_map, List.all_eq_true] at hall
    generalize Lines.lines Utf8.newline received = lines at hall
    induction lines with
    | nil => exact ⟨[], rfl⟩
    | cons line lines ih =>
      obtain ⟨hline, hall⟩ := List.forall_mem_cons.mp hall
      obtain ⟨chars, hchars⟩ := ih hall
      obtain ⟨first, hfirst⟩ := Option.isSome_iff_exists.mp hline
      exact ⟨first ++ chars, by
        rw [List.flatten_cons, hchars, Utf8.encode_append, Utf8.encode_of_decode hfirst]⟩
  · rintro ⟨chars, rfl⟩
    rw [readLines_encode]
    simp

theorem readable_map_some (lines : List (List Char)) : readable (lines.map some) = lines := by
  induction lines with
  | nil => rfl
  | cons line lines ih => rw [List.map_cons, readable, ih]

theorem readable_append (before after : List (Option (List Char))) :
    readable (before ++ after) =
      if before.all (·.isSome) then readable before ++ readable after else readable before := by
  induction before with
  | nil => rfl
  | cons line before ih =>
    cases line with
    | none => rfl
    | some line =>
      rw [List.cons_append, readable, readable, ih]
      simp only [List.all_cons, Option.isSome_some, Bool.true_and]
      split_ifs <;> rfl

theorem crlf_regroup (front : List Char) : front ++ crlf = front ++ ['\r'] ++ ['\n'] := by
  rw [List.append_assoc]
  rfl

theorem all_readLines_head {head : List Char} (hhead : IsHead head) (rest : List UInt8) :
    (readLines (Utf8.encode head ++ rest)).all (·.isSome) = (readLines rest).all (·.isSome) := by
  obtain ⟨headers, -, -, rfl⟩ := hhead
  rw [crlf_regroup, readLines_append, List.all_append]
  simp

theorem skipHeaders_head {head : List Char} (hhead : IsHead head) (rest : List UInt8) :
    skipHeaders (readLines (Utf8.encode head ++ rest)) = .ok (readLines rest) := by
  obtain ⟨headers, -, hheaders, rfl⟩ := hhead
  have hlines : Lines.lines '\n' (headers.flatMap (· ++ crlf) ++ ['\r'] ++ ['\n']) =
      headers.map (· ++ crlf) ++ [crlf] := by
    have hbodies : ∀ body ∈ headers.map (· ++ ['\r']) ++ [['\r']], '\n' ∉ body := by
      intro body hmem hnewline
      rcases List.mem_append.mp hmem with hmem | hmem
      · obtain ⟨line, hline, rfl⟩ := List.mem_map.mp hmem
        simp [(hheaders line hline).2] at hnewline
      · rw [List.mem_singleton.mp hmem] at hnewline
        simp at hnewline
    have hall := Lines.lines_flatMap hbodies []
    simpa [crlf, List.flatMap_map, Function.comp_def] using hall
  rw [crlf_regroup, readLines_append, hlines]
  clear hlines
  induction headers with
  | nil => rfl
  | cons line headers ih =>
    have hne : line ++ crlf ≠ crlf := by simpa using (hheaders line (by simp)).1
    have hrest := ih fun l hl => hheaders l (by simp [hl])
    simpa [skipHeaders, hne] using hrest

variable {trimPayload : List Char → List Char}

theorem sseLine_open {line : List Char} (h : '\n' ∉ line) (dataBuf : List Char) :
    (sseLine trimPayload dataBuf line).2 = [] := by
  have hcrlf : line ≠ crlf := by
    rintro rfl
    exact h (by decide)
  have hnewline : line ≠ ['\n'] := by
    rintro rfl
    exact h (by decide)
  unfold sseLine
  split_ifs with hdata hend
  · rfl
  · simp [hcrlf, hnewline] at hend
  · simp [hcrlf, hnewline] at hend
  · rfl

theorem run_open {lines : List (List Char)} (h : ∀ line ∈ lines, '\n' ∉ line) (dataBuf : List Char) :
    (Transducer.run (sseLine trimPayload) dataBuf lines).2 = [] := by
  induction lines generalizing dataBuf with
  | nil => rfl
  | cons line lines ih =>
    rw [Transducer.run_cons_snd, sseLine_open (h line (by simp)), List.nil_append]
    exact ih (fun l hl => h l (by simp [hl])) _

theorem mem_readable {lines : List (Option (List Char))} {line : List Char} (h : line ∈ readable lines) :
    some line ∈ lines := by
  induction lines with
  | nil => cases h
  | cons first lines ih =>
    cases first with
    | none => cases h
    | some first =>
      rcases List.mem_cons.mp h with rfl | h
      · exact List.mem_cons_self
      · exact List.mem_cons_of_mem _ (ih h)

theorem events_mono (trimPayload : List Char → List Char) {received stream : List UInt8}
    (h : received <+: stream) :
    events trimPayload (readLines received) <+: events trimPayload (readLines stream) := by
  obtain ⟨whole, part, hreceived, ⟨more, hmore⟩, hpart⟩ := Lines.lines_prefix h
  rw [events, events, readLines, readLines, hreceived, ← hmore, List.map_append, List.map_append,
    readable_append, readable_append]
  split_ifs
  · have hopen : ∀ line ∈ readable (part.map Utf8.decode), '\n' ∉ line := by
      intro line hline hmem
      obtain ⟨bytes, hbytes, hdecode⟩ := List.mem_map.mp (mem_readable hline)
      refine hpart bytes hbytes ?_
      rw [← Utf8.encode_of_decode hdecode]
      exact List.mem_flatMap.mpr ⟨'\n', hmem, List.mem_singleton_self _⟩
    rw [Transducer.run_append, Transducer.run_append, run_open hopen, List.append_nil]
    exact List.prefix_append _ _
  · exact List.prefix_rfl

/-! ### The events of a stream -/

theorem run_event {data value : List Char} (hvalue : trimPayload (' ' :: data ++ ['\n']) = value)
    (htrimmed : (value ++ ['\n']).rdropWhile isWhitespace = value) :
    Transducer.run (sseLine trimPayload) [] [("data: ".toList ++ data) ++ ['\n'], ['\n']] =
      ([], [String.ofList value]) := by
  have hdata : sseLine trimPayload [] (("data: ".toList ++ data) ++ ['\n']) = (value ++ ['\n'], []) := by
    simp [sseLine, ← hvalue]
  have hend : sseLine trimPayload (value ++ ['\n']) ['\n'] = ([], [String.ofList value]) := by
    simp [sseLine, htrimmed]
  rw [Transducer.run_cons, hdata, Transducer.run_cons, hend]
  rfl

theorem sseLine_size {size : List Char} (hsize : IsSize size) :
    sseLine trimPayload [] ((size ++ ['\r']) ++ ['\n']) = ([], []) := by
  obtain ⟨hne, hdigits⟩ := hsize
  obtain ⟨digit, digits, rfl⟩ := List.exists_cons_of_ne_nil hne
  have hdata : "data:".toList.isPrefixOf ((digit :: digits) ++ ['\r'] ++ ['\n']) = false := by
    rw [Bool.eq_false_iff, Ne, List.isPrefixOf_iff_prefix]
    intro hpre
    -- There is no `t` in it.
    have ht : 't' ∈ (digit :: digits) ++ ['\r'] ++ ['\n'] := hpre.subset (by decide)
    simp only [List.append_assoc, List.mem_append, List.mem_cons, List.not_mem_nil, or_false] at ht
    rcases ht with ht | ht | ht
    · exact absurd (hdigits 't' (List.mem_cons.mpr ht)) (by decide)
    · exact absurd ht (by decide)
    · exact absurd ht (by decide)
  have hdigit := hdigits digit List.mem_cons_self
  have hr : digit ≠ '\r' := fun heq => absurd (heq ▸ hdigit) (by decide)
  have hn : digit ≠ '\n' := fun heq => absurd (heq ▸ hdigit) (by decide)
  rw [sseLine, hdata]
  simp [crlf, hr, hn]

theorem sseLine_crlf : sseLine trimPayload [] ['\r', '\n'] = ([], []) := rfl

/-- What a client does to a text that it keeps. -/
structure KeepsText (render : Json → String) (text : InstantText) (trimPayload : List Char → List Char)
    (value : ServedSnapshot → List Char) : Prop where
  payload : ∀ snap, trimPayload (' ' :: (snap.body render text).toList ++ ['\n']) = value snap
  trimmed : ∀ snap, (value snap ++ ['\n']).rdropWhile isWhitespace = value snap

variable {value : ServedSnapshot → List Char}

/-- The lines of the events, without the ends of lines. -/
def eventLines (render : Json → String) (text : InstantText) (snaps : List ServedSnapshot) :
    List (List Char) :=
  snaps.flatMap fun snap => ["data: ".toList ++ (snap.body render text).toList, []]

theorem run_events (h : KeepsText render text trimPayload value) (snaps : List ServedSnapshot) :
    Transducer.run (sseLine trimPayload) [] ((eventLines render text snaps).map (· ++ ['\n'])) =
      ([], snaps.map fun snap => String.ofList (value snap)) := by
  induction snaps with
  | nil => rfl
  | cons snap snaps ih =>
    unfold eventLines at ih ⊢
    rw [List.flatMap_cons, List.map_append, Transducer.run_append]
    have hevent := run_event (h.payload snap) (h.trimmed snap)
    simp only [List.map_cons, List.map_nil, List.nil_append] at hevent ⊢
    rw [hevent, ih]
    rfl

theorem run_chunk (h : KeepsText render text trimPayload value) {size : List Char} (hsize : IsSize size)
    (snaps : List ServedSnapshot) :
    Transducer.run (sseLine trimPayload) []
      (((size ++ ['\r']) :: eventLines render text snaps ++ [['\r']]).map (· ++ ['\n'])) =
        ([], snaps.map fun snap => String.ofList (value snap)) := by
  rw [List.cons_append, List.map_cons, List.map_append, Transducer.run_cons, sseLine_size hsize,
    Transducer.run_append, run_events h]
  simp [Transducer.run_cons, sseLine_crlf]

theorem eventChunk_eq (text : InstantText) (hencoding : encoding.Standard) (hrender : CompactWriter render)
    {snaps : List ServedSnapshot} (hne : snaps ≠ []) :
    ∃ size, IsSize size ∧ eventChunk encoding render text snaps =
      ((size ++ ['\r']) :: eventLines render text snaps ++ [['\r']]).flatMap (· ++ ['\n']) := by
  have hevents : (snaps.flatMap fun snap => encoding.event (snap.body render text)) =
      (eventLines render text snaps).flatMap (· ++ ['\n']) := by
    rw [eventLines, List.flatMap_assoc]
    refine List.flatMap_congr fun snap _ => ?_
    rw [hencoding.event (snap.body render text) (hrender.printable _)]
    simp
  have hcontent : (snaps.flatMap fun snap => encoding.event (snap.body render text)) ≠ [] := by
    rw [hevents]
    obtain ⟨snap, snaps, rfl⟩ := List.exists_cons_of_ne_nil hne
    simp [eventLines]
  obtain ⟨size, hsize, hchunk⟩ := hencoding.chunk _ hcontent
  refine ⟨size, hsize, ?_⟩
  rw [eventChunk, hchunk, hevents]
  simp [crlf]

theorem events_stream (hencoding : encoding.Standard) (hrender : CompactWriter render)
    (h : KeepsText render text trimPayload value) {chunks : List (List ServedSnapshot)}
    (hchunks : ∀ snaps ∈ chunks, snaps ≠ []) :
    events trimPayload (readLines (Utf8.encode (chunks.flatMap (eventChunk encoding render text)))) =
      chunks.flatten.map fun snap => String.ofList (value snap) := by
  have hrun : Transducer.run (sseLine trimPayload) []
      (Lines.lines '\n' (chunks.flatMap (eventChunk encoding render text))) =
        ([], chunks.flatten.map fun snap => String.ofList (value snap)) := by
    induction chunks with
    | nil => rfl
    | cons snaps chunks ih =>
      obtain ⟨hsnaps, hchunks⟩ := List.forall_mem_cons.mp hchunks
      obtain ⟨size, hsize, hchunk⟩ := eventChunk_eq text hencoding hrender hsnaps
      have hbodies : ∀ body ∈ (size ++ ['\r']) :: eventLines render text snaps ++ [['\r']], '\n' ∉ body := by
        intro body hmem hnewline
        simp only [eventLines, List.mem_append, List.mem_cons, List.mem_flatMap, List.not_mem_nil,
          or_false] at hmem
        rcases hmem with (rfl | ⟨snap, -, rfl | rfl⟩) | rfl
        · rcases List.mem_append.mp hnewline with hmem | hmem
          · exact absurd (hsize.2 _ hmem) (by decide)
          · simp at hmem
        · rcases List.mem_append.mp hnewline with hmem | hmem
          · simp at hmem
          · exact newline_notMem_body hrender snap hmem
        · simp at hnewline
        · simp at hnewline
      rw [List.flatMap_cons, hchunk, Lines.lines_flatMap hbodies, Transducer.run_append, run_chunk h hsize,
        ih hchunks, List.flatten_cons, List.map_append]
  rw [events, readLines_encode, readable_map_some, hrun]

/-! ### The two clients -/

theorem rdropWhile_brace (front : List Char) :
    ((front ++ ['\x7d']) ++ ['\n']).rdropWhile isWhitespace = front ++ ['\x7d'] := by
  rw [List.rdropWhile_concat_pos _ _ _ (by decide), List.rdropWhile_concat_neg _ _ _ (by decide)]

theorem keepsText_watch (hrender : CompactWriter render) :
    KeepsText render text (Trimming.trim isWhitespace) fun snap => (snap.body render text).toList := by
  constructor
  · intro snap
    obtain ⟨inner, hbody⟩ := body_ends hrender text snap
    have htrim : Trimming.trim isWhitespace ([' '] ++ (snap.body render text).toList ++ ['\n']) =
        Trimming.trim isWhitespace (snap.body render text).toList :=
      Trimming.trim_append _ (by simp; decide) (by simp; decide)
    have hkept : Trimming.trim isWhitespace (snap.body render text).toList = (snap.body render text).toList := by
      refine Trimming.trim_of_ends ?_ ?_
      · rw [hbody]
        simpa using (by decide : isWhitespace '\x7b' = false)
      · rw [hbody, List.getLast?_concat]
        simpa using (by decide : isWhitespace '\x7d' = false)
    exact htrim.trans hkept
  · intro snap
    obtain ⟨inner, hbody⟩ := body_ends hrender text snap
    rw [hbody]
    exact rdropWhile_brace _

theorem keepsText_monitor (hrender : CompactWriter render) :
    KeepsText render text (fun payload => payload.rdropWhile isWhitespace) fun snap =>
      ' ' :: (snap.body render text).toList := by
  constructor
  all_goals
    intro snap
    obtain ⟨inner, hbody⟩ := body_ends hrender text snap
    rw [hbody]
    exact rdropWhile_brace (' ' :: '\x7b' :: inner)

/-- A snapshot that a client can read: from its text, and from its text behind a blank. -/
structure Served (render : Json → String) (text : InstantText) (parse : String → Option Json)
    (snap : ServedSnapshot) : Prop where
  fits : (SnapshotJson.snapshot text).Fits snap
  parsed : parse (snap.body render text) = some ((SnapshotJson.snapshot text).toJson snap)
  indented : parse (" " ++ snap.body render text) = some ((SnapshotJson.snapshot text).toJson snap)

/-- What the client has of a snapshot that it prints. -/
def shown (render : Json → String) (text : InstantText) (snap : ServedSnapshot) :
    String × ServedSnapshot := (snap.body render text, snap)

theorem shown_injective : Function.Injective (shown render text) := fun _ _ h => (Prod.ext_iff.mp h).2

theorem Served.read {snap : ServedSnapshot} (h : Served render text parse snap) :
    httpSnapshot text parse (snap.body render text) = some snap := httpSnapshot_body h.fits h.parsed

theorem Served.read_indented {snap : ServedSnapshot} (h : Served render text parse snap) :
    httpSnapshot text parse (" " ++ snap.body render text) = some snap := by
  rw [httpSnapshot, h.indented, Option.bind_some, (SnapshotJson.snapshot text).fromJson_toJson snap h.fits]

theorem readEvents_watch {snaps : List ServedSnapshot} (h : ∀ snap ∈ snaps, Served render text parse snap) :
    readEvents text parse (snaps.map fun snap => String.ofList (snap.body render text).toList) =
      snaps.map (shown render text) := by
  induction snaps with
  | nil => rfl
  | cons snap snaps ih =>
    have hread := (h snap (by simp)).read
    have hrest := ih fun s hs => h s (by simp [hs])
    simp only [readEvents, List.map_cons, List.filterMap_cons, String.ofList_toList, hread, Option.map_some]
      at hrest ⊢
    rw [hrest]
    rfl

theorem readEvents_monitor {snaps : List ServedSnapshot} (h : ∀ snap ∈ snaps, Served render text parse snap) :
    (readEvents text parse (snaps.map fun snap => String.ofList (' ' :: (snap.body render text).toList))).map
      Prod.snd = snaps := by
  induction snaps with
  | nil => rfl
  | cons snap snaps ih =>
    have hbody : String.ofList (' ' :: (snap.body render text).toList) = " " ++ snap.body render text := by
      rw [← String.toList_inj]
      simp
    have hread := (h snap (by simp)).read_indented
    have hrest := ih fun s hs => h s (by simp [hs])
    simp only [readEvents, List.map_cons, List.filterMap_cons, hbody, hread, Option.map_some] at hrest ⊢
    rw [hrest]

theorem readEvents_append (before after : List String) :
    readEvents text parse (before ++ after) = readEvents text parse before ++ readEvents text parse after :=
  List.filterMap_append

theorem not_crlf_prefix {c : Char} {line : List Char} (h : '\n' ∉ line) (rest more : List Char) :
    (crlf ++ more).isPrefixOf (c :: (line ++ crlf ++ rest)) = false := by
  cases line with
  | nil => simp [crlf, List.isPrefixOf]
  | cons d line =>
    have hd : '\n' ≠ d := by
      rintro rfl
      exact h (by simp)
    simp [crlf, List.isPrefixOf, hd]

theorem afterBlankLine_line {line rest : List Char} (hline : '\n' ∉ line)
    (hrest : crlf.isPrefixOf rest = false) : afterBlankLine (line ++ crlf ++ rest) = afterBlankLine rest := by
  induction line with
  | nil =>
    have hfirst : (crlf ++ crlf).isPrefixOf ('\r' :: '\n' :: rest) = false := by
      simpa [crlf, List.isPrefixOf] using hrest
    have hsecond : (crlf ++ crlf).isPrefixOf ('\n' :: rest) = false := by simp [crlf, List.isPrefixOf]
    show afterBlankLine ('\r' :: '\n' :: rest) = _
    rw [afterBlankLine, hfirst, if_neg Bool.false_ne_true, afterBlankLine, hsecond,
      if_neg Bool.false_ne_true]
  | cons c line ih =>
    have hline' : '\n' ∉ line := fun hmem => hline (by simp [hmem])
    rw [List.cons_append, List.cons_append, afterBlankLine, not_crlf_prefix hline',
      if_neg Bool.false_ne_true]
    exact ih hline'

theorem afterBlankLine_last {line : List Char} (hline : '\n' ∉ line) (body : List Char) :
    afterBlankLine (line ++ crlf ++ (crlf ++ body)) = some body := by
  induction line with
  | nil => rfl
  | cons c line ih =>
    have hline' : '\n' ∉ line := fun hmem => hline (by simp [hmem])
    rw [List.cons_append, List.cons_append, afterBlankLine, not_crlf_prefix hline',
      if_neg Bool.false_ne_true]
    exact ih hline'

theorem afterBlankLine_head {head : List Char} (hhead : IsHead head) (body : List Char) :
    afterBlankLine (head ++ body) = some body := by
  obtain ⟨headers, hne, hheaders, rfl⟩ := hhead
  induction headers with
  | nil => exact absurd rfl hne
  | cons line headers ih =>
    obtain ⟨_, hnewline⟩ := hheaders line (by simp)
    cases headers with
    | nil => simpa using afterBlankLine_last hnewline body
    | cons next headers =>
      obtain ⟨hnext, hnewline'⟩ := hheaders next (by simp)
      obtain ⟨c, rest, rfl⟩ := List.exists_cons_of_ne_nil hnext
      have hrest : crlf.isPrefixOf (((c :: rest) :: headers).flatMap (· ++ crlf) ++ crlf ++ body) = false := by
        have hc : '\n' ∉ rest := fun hmem => hnewline' (by simp [hmem])
        simpa using not_crlf_prefix (c := c) hc (headers.flatMap (· ++ crlf) ++ crlf ++ body) []
      have hline := afterBlankLine_line hnewline hrest
      rw [ih (List.cons_ne_nil _ _) fun l hl => hheaders l (by simp [hl])] at hline
      simpa using hline

theorem httpGetSnapshot_response (hencoding : encoding.Standard) {snap : ServedSnapshot}
    (hserved : Served render text parse snap) :
    httpGetSnapshot text parse (snapshotResponse encoding render text snap) = .ok snap := by
  obtain ⟨head, hhead, hresponse⟩ := hencoding.response (snap.body render text)
  rw [httpGetSnapshot, snapshotResponse, hresponse, afterBlankLine_head hhead]
  simp only [String.ofList_toList, hserved.read]

theorem sseWatchViaHttp_head {head : List Char} (hhead : IsHead head) (rest : List UInt8) :
    sseWatchViaHttp text parse (Utf8.encode head ++ rest) =
      (readEvents text parse (events (Trimming.trim isWhitespace) (readLines rest)),
        if (readLines rest).all (·.isSome) then .ok () else .error invalidData) := by
  rw [sseWatchViaHttp, skipHeaders_head hhead]

theorem monitorFrames_head {head : List Char} (hhead : IsHead head) (rest : List UInt8) :
    monitorFrames text parse (Utf8.encode head ++ rest) =
      (readEvents text parse
        (events (fun payload => payload.rdropWhile isWhitespace) (readLines rest))).map Prod.snd := by
  rw [monitorFrames, skipHeaders_head hhead]

section Stream

variable (hencoding : encoding.Standard) (hrender : CompactWriter render)
  {chunks : List (List ServedSnapshot)} (hchunks : ∀ snaps ∈ chunks, snaps ≠ [])
  (hserved : ∀ snap ∈ chunks.flatten, Served render text parse snap)

include hencoding hrender hchunks hserved

theorem readEvents_stream :
    readEvents text parse (events (Trimming.trim isWhitespace)
      (readLines (Utf8.encode (chunks.flatMap (eventChunk encoding render text))))) =
        chunks.flatten.map (shown render text) := by
  rw [events_stream hencoding hrender (keepsText_watch hrender) hchunks]
  exact readEvents_watch hserved

theorem frames_stream :
    (readEvents text parse (events (fun payload => payload.rdropWhile isWhitespace)
      (readLines (Utf8.encode (chunks.flatMap (eventChunk encoding render text)))))).map Prod.snd =
        chunks.flatten := by
  rw [events_stream hencoding hrender (keepsText_monitor hrender) hchunks]
  exact readEvents_monitor hserved

theorem sseWatchViaHttp_response :
    sseWatchViaHttp text parse (Utf8.encode (streamResponse encoding render text chunks)) =
      (chunks.flatten.map (shown render text), .ok ()) := by
  rw [streamResponse, Utf8.encode_append, sseWatchViaHttp_head hencoding.streamHead,
    readEvents_stream hencoding hrender hchunks hserved, if_pos (all_readLines.mpr ⟨_, rfl⟩)]

theorem monitorFrames_response :
    monitorFrames text parse (Utf8.encode (streamResponse encoding render text chunks)) =
      chunks.flatten := by
  rw [streamResponse, Utf8.encode_append, monitorFrames_head hencoding.streamHead,
    frames_stream hencoding hrender hchunks hserved]

end Stream

theorem readEvents_mono (text : InstantText) (parse : String → Option Json)
    (trimPayload : List Char → List Char) {received stream : List UInt8}
    (h : received <+: stream) :
    readEvents text parse (events trimPayload (readLines received)) <+:
      readEvents text parse (events trimPayload (readLines stream)) := by
  obtain ⟨more, hmore⟩ := events_mono trimPayload h
  rw [← hmore, readEvents_append]
  exact List.prefix_append _ _

/-- A client that has received the chunks of `before` whole has printed their snapshots, and it prints
nothing but what the server sends, each snapshot as it is, wherever the connection is cut; it returns an
error exactly if that is inside a character. -/
theorem watch_prints_served (hencoding : encoding.Standard) (hrender : CompactWriter render)
    (before after : List (List ServedSnapshot)) (hchunks : ∀ snaps ∈ before ++ after, snaps ≠ [])
    (hserved : ∀ snap ∈ (before ++ after).flatten, Served render text parse snap) {received : List UInt8}
    (hbefore : Utf8.encode (streamResponse encoding render text before) <+: received)
    (hreceived : received <+: Utf8.encode (streamResponse encoding render text (before ++ after))) :
    (∃ printed, (sseWatchViaHttp text parse received).1 = printed.map (shown render text) ∧
      before.flatten <+: printed ∧ printed <+: (before ++ after).flatten) ∧
      ((sseWatchViaHttp text parse received).2 = .ok () ↔ ∃ chars, received = Utf8.encode chars) ∧
      before.flatten <+: monitorFrames text parse received ∧
      monitorFrames text parse received <+: (before ++ after).flatten := by
  -- Behind the head.
  rw [streamResponse, Utf8.encode_append] at hbefore hreceived
  obtain ⟨rest, rfl⟩ := (List.prefix_append _ _).trans hbefore
  rw [List.prefix_append_right_inj] at hbefore hreceived
  rw [sseWatchViaHttp_head hencoding.streamHead, monitorFrames_head hencoding.streamHead]
  have hchunks' : ∀ snaps ∈ before, snaps ≠ [] := fun snaps hmem =>
    hchunks snaps (List.mem_append_left _ hmem)
  have hserved' : ∀ snap ∈ before.flatten, Served render text parse snap := fun snap hsnap =>
    hserved snap (by simp only [List.flatten_append, List.mem_append, hsnap, true_or])
  refine ⟨?_, ?_, ?_, ?_⟩
  · have hfirst := readEvents_mono text parse (Trimming.trim isWhitespace) hbefore
    have hlast := readEvents_mono text parse (Trimming.trim isWhitespace) hreceived
    rw [readEvents_stream hencoding hrender hchunks' hserved'] at hfirst
    rw [readEvents_stream hencoding hrender hchunks hserved] at hlast
    -- What it has printed is a part of the list of all texts and snapshots, so it is the list of some.
    obtain ⟨printed, hprinted, heq⟩ := List.prefix_map_iff.mp hlast
    rw [heq] at hfirst
    exact ⟨printed, heq, (List.prefix_map_iff_of_injective shown_injective).mp hfirst, hprinted⟩
  · have hok : ((if (readLines rest).all (·.isSome) then .ok () else .error invalidData) :
        Except String Unit) = .ok () ↔ (readLines rest).all (·.isSome) = true := by
      split_ifs with hall
      · exact iff_of_true rfl hall
      · exact iff_of_false (fun h => by cases h) hall
    rw [← all_readLines, all_readLines_head hencoding.streamHead]
    exact hok
  · rw [← frames_stream hencoding hrender hchunks' hserved']
    exact (readEvents_mono _ _ _ hbefore).map _
  · rw [← frames_stream hencoding hrender hchunks hserved]
    exact (readEvents_mono _ _ _ hreceived).map _

end

/-! ### A stream of two snapshots, of which the second has not arrived -/

theorem le_of_mem_all {c : Char} {l : List Char} (h : l.all (0x20 ≤ ·.toNat)) (hmem : c ∈ l) :
    0x20 ≤ c.toNat := by
  simpa using List.all_eq_true.mp h c hmem

theorem le_of_mem_escape {c c' : Char} (h : c' ∈ Json.escape c) : 0x20 ≤ c'.toNat := by
  have hdigit : ∀ n, n < 16 → 0x20 ≤ (Nat.digitChar n).toNat := by decide
  have hfixed : ∀ {fixed : List Char}, (∀ c ∈ fixed, 0x20 ≤ c.toNat) → c' ∈ fixed → 0x20 ≤ c'.toNat :=
    fun hfixed hmem => hfixed c' hmem
  unfold Json.escape at h
  split_ifs at h with h1 h2 h3 h4 h5 h6 h7 h8
  all_goals try exact le_of_mem_all (by decide) h
  · have hhigh := hdigit (c.toNat / 16) (by omega)
    have hlow := hdigit (c.toNat % 16) (by omega)
    refine hfixed ?_ h
    intro d hd
    simp only [List.mem_cons, List.not_mem_nil, or_false] at hd
    rcases hd with rfl | rfl | rfl | rfl | rfl | rfl
    all_goals first | decide | assumption
  · rw [List.mem_singleton.mp h]
    exact Nat.not_lt.mp h8

theorem le_of_mem_quote {s : String} {c : Char} (h : c ∈ Json.quote s) : 0x20 ≤ c.toNat := by
  simp only [Json.quote, List.mem_append, List.mem_singleton, List.mem_flatMap] at h
  rcases h with (rfl | ⟨_, -, h⟩) | rfl
  · decide
  · exact le_of_mem_escape h
  · decide

theorem le_of_mem_int {value : Int} {c : Char} (h : c ∈ (toString value).toList) : 0x20 ≤ c.toNat := by
  have hdigits : ∀ {n : Nat}, c ∈ (toString n).toList → 0x20 ≤ c.toNat := by
    intro n hmem
    have hc := isDigit_of_mem_toString hmem
    simp only [Char.isDigit, Bool.and_eq_true, decide_eq_true_eq] at hc
    exact le_trans (by decide) (UInt32.le_iff_toNat_le.mp hc.1)
  rw [toList_toString_int] at h
  split_ifs at h
  · exact hdigits h
  · rcases List.mem_cons.mp h with rfl | h
    · decide
    · exact hdigits h

mutual

theorem le_of_mem_render {c : Char} : ∀ {json : Json}, c ∈ json.render → 0x20 ≤ c.toNat
  | .null, h => le_of_mem_all (show (Json.render .null).all (0x20 ≤ ·.toNat) by decide) h
  | .bool true, h => le_of_mem_all (show (Json.render (.bool true)).all (0x20 ≤ ·.toNat) by decide) h
  | .bool false, h => le_of_mem_all (show (Json.render (.bool false)).all (0x20 ≤ ·.toNat) by decide) h
  | .num _, h => le_of_mem_int h
  | .str _, h => le_of_mem_quote h
  | .arr items, h => by
    simp only [Json.render, List.mem_append, List.mem_singleton] at h
    rcases h with (rfl | h) | rfl
    · decide
    · exact le_of_mem_renderItems h
    · decide
  | .obj fields, h => by
    simp only [Json.render, List.mem_append, List.mem_singleton] at h
    rcases h with (rfl | h) | rfl
    · decide
    · exact le_of_mem_renderFields h
    · decide

theorem le_of_mem_renderItems {c : Char} : ∀ {items : List Json}, c ∈ Json.renderItems items → 0x20 ≤ c.toNat
  | [], h => absurd h List.not_mem_nil
  | [_], h => le_of_mem_render h
  | item :: item' :: items, h => by
    simp only [Json.renderItems, List.mem_append, List.mem_singleton] at h
    rcases h with (h | rfl) | h
    · exact le_of_mem_render h
    · decide
    · exact le_of_mem_renderItems h

theorem le_of_mem_renderFields {c : Char} :
    ∀ {fields : List (String × Json)}, c ∈ Json.renderFields fields → 0x20 ≤ c.toNat
  | [], h => absurd h List.not_mem_nil
  | [(name, value)], h => by
    simp only [Json.renderFields, List.mem_append, List.mem_singleton] at h
    rcases h with (h | rfl) | h
    · exact le_of_mem_quote h
    · decide
    · exact le_of_mem_render h
  | (name, value) :: field :: fields, h => by
    simp only [Json.renderFields, List.mem_append, List.mem_singleton] at h
    rcases h with (((h | rfl) | h) | rfl) | h
    · exact le_of_mem_quote h
    · decide
    · exact le_of_mem_render h
    · decide
    · exact le_of_mem_renderFields h

end

theorem compactWriter_sample : CompactWriter sampleRender where
  braces fields := by
    rw [sampleRender, String.toList_ofList]
    exact ⟨_, rfl⟩
  printable json c hc := by
    rw [sampleRender, String.toList_ofList] at hc
    exact le_of_mem_render hc

/-- What hyper and axum send. -/
def sampleEncoding : HttpEncoding where
  response body := "HTTP/1.1 200 OK\r\ncontent-type: application/json\r\n\r\n".toList ++ body.toList
  streamHead := "HTTP/1.1 200 OK\r\ncontent-type: text/event-stream\r\n\r\n".toList
  chunk content :=
    (Nat.toDigits 16 (Utf8.encode content).length).map Char.toUpper ++ crlf ++ content ++ crlf
  event data := "data: ".toList ++ data.toList ++ ['\n', '\n']

theorem mem_toDigits_hex {n : Nat} {digit : Char} (h : digit ∈ Nat.toDigits 16 n) :
    ∃ d, d < 16 ∧ digit = Nat.digitChar d := by
  induction n using Nat.strong_induction_on with
  | _ n ih =>
    by_cases hn : n < 16
    · rw [Nat.toDigits_of_lt_base hn, List.mem_singleton] at h
      exact ⟨n, hn, h⟩
    · rw [Nat.toDigits_of_base_le (by omega) (by omega)] at h
      rcases List.mem_append.mp h with h | h
      · exact ih (n / 16) (by omega) h
      · exact ⟨n % 16, by omega, List.mem_singleton.mp h⟩

theorem standard_sample : sampleEncoding.Standard where
  response body := ⟨_, ⟨["HTTP/1.1 200 OK".toList, "content-type: application/json".toList], by decide,
    by decide, rfl⟩, rfl⟩
  streamHead := ⟨["HTTP/1.1 200 OK".toList, "content-type: text/event-stream".toList], by decide, by decide,
    rfl⟩
  chunk content _ := by
    refine ⟨_, ⟨by simp [Nat.toDigits_ne_nil], fun c hc => ?_⟩, rfl⟩
    obtain ⟨digit, hdigit, rfl⟩ := List.mem_map.mp hc
    have hdigits : ∀ n, n < 16 → Char.toUpper (Nat.digitChar n) ∈ "0123456789abcdefABCDEF".toList := by decide
    obtain ⟨n, hn, rfl⟩ := mem_toDigits_hex hdigit
    exact hdigits n hn
  event data _ := rfl

/-- `serde_json` at the bodies of some snapshots. -/
def bodiesParse (snaps : List ServedSnapshot) (body : String) : Option Json :=
  (snaps.find? fun snap => body = snap.body sampleRender sampleText ∨
    body = " " ++ snap.body sampleRender sampleText).map (SnapshotJson.snapshot sampleText).toJson

theorem body_ne_indented (snap other : ServedSnapshot) :
    snap.body sampleRender sampleText ≠ " " ++ other.body sampleRender sampleText := by
  intro h
  obtain ⟨inner, hbody⟩ := body_ends compactWriter_sample sampleText snap
  have hhead := congrArg (fun body : String => body.toList.head?) h
  simp [hbody] at hhead

theorem indented_inj {body other : String} (h : " " ++ body = " " ++ other) : body = other := by
  have hlists := congrArg String.toList h
  rw [String.toList_append, String.toList_append, List.append_cancel_left_eq] at hlists
  exact String.toList_inj.mp hlists

theorem served_bodiesParse {snaps : List ServedSnapshot}
    (hfits : ∀ snap ∈ snaps, (SnapshotJson.snapshot sampleText).Fits snap)
    (hnodup : (snaps.map fun snap => snap.body sampleRender sampleText).Nodup) :
    ∀ snap ∈ snaps, Served sampleRender sampleText (bodiesParse snaps) snap := by
  have hfind : ∀ snap ∈ snaps, ∀ body,
      body = snap.body sampleRender sampleText ∨ body = " " ++ snap.body sampleRender sampleText →
      bodiesParse snaps body = some ((SnapshotJson.snapshot sampleText).toJson snap) := by
    clear hfits
    intro snap hsnap body hbody
    induction snaps with
    | nil => simp at hsnap
    | cons first snaps ih =>
      obtain ⟨hfirst, hnodup⟩ := List.nodup_cons.mp hnodup
      rcases List.mem_cons.mp hsnap with rfl | hsnap
      · rw [bodiesParse, List.find?_cons_of_pos (by simpa using hbody), Option.map_some]
      · have hne : snap.body sampleRender sampleText ≠ first.body sampleRender sampleText := fun heq =>
          hfirst (List.mem_map.mpr ⟨snap, hsnap, heq⟩)
        have hother : ¬(body = first.body sampleRender sampleText ∨
            body = " " ++ first.body sampleRender sampleText) := by
          rcases hbody with rfl | rfl
          · simp [hne, body_ne_indented]
          · rintro (h | h)
            · exact body_ne_indented first snap h.symm
            · exact hne (indented_inj h)
        rw [bodiesParse, List.find?_cons_of_neg (by simpa using hother)]
        exact ih hnodup hsnap
  intro snap hsnap
  exact ⟨hfits snap hsnap, hfind snap hsnap _ (.inl rfl), hfind snap hsnap _ (.inr rfl)⟩

theorem body_ne {snap other : ServedSnapshot}
    (h : ((SnapshotJson.snapshot sampleText).toJson snap).render.take 8 ≠
      ((SnapshotJson.snapshot sampleText).toJson other).render.take 8) :
    snap.body sampleRender sampleText ≠ other.body sampleRender sampleText := by
  intro heq
  rw [ServedSnapshot.body, ServedSnapshot.body, sampleRender, sampleRender, String.ofList_inj] at heq
  exact h (congrArg (List.take 8) heq)

theorem served_samples :
    ∀ snap ∈ [quietSnapshot, activeSnapshot],
      Served sampleRender sampleText (bodiesParse [quietSnapshot, activeSnapshot]) snap := by
  refine served_bodiesParse ?_ ?_
  · intro snap hsnap
    simp only [List.mem_cons, List.not_mem_nil, or_false] at hsnap
    rcases hsnap with rfl | rfl
    · exact quietSnapshot_fits
    · exact activeSnapshot_fits
  · have hne : quietSnapshot.body sampleRender sampleText ≠
        activeSnapshot.body sampleRender sampleText := body_ne (by decide)
    simpa using hne

theorem streamResponse_append (encoding : HttpEncoding) (render : Json → String) (text : InstantText)
    (before after : List (List ServedSnapshot)) :
    streamResponse encoding render text (before ++ after) =
      streamResponse encoding render text before ++ after.flatMap (eventChunk encoding render text) := by
  simp [streamResponse]

/-- The client has received the first of two chunks, and the begin of the next. -/
theorem watch_prints_first :
    ∃ printed, (sseWatchViaHttp sampleText (bodiesParse [quietSnapshot, activeSnapshot])
        (Utf8.encode (streamResponse sampleEncoding sampleRender sampleText [[quietSnapshot]]) ++
          (Utf8.encode (eventChunk sampleEncoding sampleRender sampleText [activeSnapshot])).take 10)).1 =
        printed.map (shown sampleRender sampleText) ∧
      [quietSnapshot] <+: printed ∧ printed <+: [quietSnapshot, activeSnapshot] := by
  refine (watch_prints_served standard_sample compactWriter_sample [[quietSnapshot]] [[activeSnapshot]]
    (by simp) served_samples (List.prefix_append _ _) ?_).1
  rw [streamResponse_append, Utf8.encode_append]
  refine (List.prefix_append_right_inj _).mpr ?_
  simpa using List.take_prefix 10 _

end Kronical

/-
Frames of the daemon's socket (`daemon/protocol.py`).

A frame is the length of its body in four bytes, and the body: JSON in UTF-8.  The bytes that a
peer has sent are read in chunks of any size.

* `receiveExact_flatten` — the chunks make no difference;
* `frame_laws` — **what is encoded is received**, and when what is received can be encoded again;
* `surrogate_refused` — a frame whose object cannot.
-/
import Rosclaw.Lib.JsonLaws

namespace Rosclaw.Protocol

open Json JsonText List

def maxFrameBytes : Nat := 1024 * 1024

/-- What is raised: a `DaemonProtocolError` with its code, or another exception. -/
inductive Failure
  | protocol (code : String)
  | raised (exception : String)
deriving DecidableEq, Repr

/-- `struct.pack("!I", n)`. -/
def pack (n : Nat) : List UInt8 :=
  [.ofNat (n / 2 ^ 24), .ofNat (n / 2 ^ 16), .ofNat (n / 2 ^ 8), .ofNat n]

/-- `struct.unpack("!I", header)[0]`. -/
def unpack (header : List UInt8) : Nat := header.foldl (fun n b => 256 * n + b.toNat) 0

/-- `text.encode("utf-8")`, for characters. -/
def utf8 (t : List Char) : List UInt8 := t.flatMap String.utf8EncodeChar

def decodeUtf8 (body : List UInt8) : Option (List Char) :=
  body.toByteArray.utf8Decode?.map Array.toList

def body (payload : Json) : List UInt8 := utf8 (text payload)

/-- `encode_frame`; `limit` is how many containers may be nested. -/
def encodeFrame (limit maxBytes : Nat) (payload : Json) : Except Failure (List UInt8) :=
  match check limit payload with
  | .error .value => .error (.protocol "INVALID_MESSAGE")
  | .error .recursion => .error (.raised "RecursionError")
  | .ok () =>
      if payload.encodable = false then .error (.protocol "INVALID_MESSAGE")
      else if body payload = [] then .error (.protocol "INVALID_MESSAGE")
      else if maxBytes < (body payload).length then .error (.protocol "FRAME_TOO_LARGE")
      else if 2 ^ 32 ≤ (body payload).length then .error (.raised "struct.error")
      else .ok (pack (body payload).length ++ body payload)

/-- What a peer has sent before it closed the connection, as `recv` finds it. -/
structure Connection where
  chunks : List (List UInt8)
  nonempty : ∀ c ∈ chunks, c ≠ []

def Connection.bytes (c : Connection) : List UInt8 := c.chunks.flatten

/-- `_receive_exact`, with the chunks that are left. -/
def receiveExact : List (List UInt8) → Nat → Except Failure (List UInt8 × List (List UInt8))
  | chunks, 0 => .ok ([], chunks)
  | [], _ + 1 => .error (.protocol "TRUNCATED_FRAME")
  | c :: chunks, n + 1 =>
      if c.length ≤ n + 1 then
        (receiveExact chunks (n + 1 - c.length)).map fun p => (c ++ p.1, p.2)
      else .ok (c.take (n + 1), c.drop (n + 1) :: chunks)

def decodeBody (limit : Nat) (body : List UInt8) : Except Failure Json :=
  match decodeUtf8 body with
  | none => .error (.protocol "INVALID_JSON")
  | some t => match loads limit t with
    | .error .value => .error (.protocol "INVALID_JSON")
    | .error .recursion => .error (.raised "RecursionError")
    | .ok payload =>
        if isObject payload then .ok payload else .error (.protocol "INVALID_MESSAGE")

def receiveFrame (limit maxBytes : Nat) (connection : Connection) : Except Failure Json := do
  let header ← receiveExact connection.chunks 4
  let length := unpack header.1
  if length = 0 then .error (.protocol "INVALID_MESSAGE")
  else if maxBytes < length then .error (.protocol "FRAME_TOO_LARGE")
  else
    let body ← receiveExact header.2 length
    decodeBody limit body.1

/-! ### Chunks -/

/-- **What is received depends on the bytes alone.** -/
theorem receiveExact_flatten (chunks : List (List UInt8)) (n : Nat) :
    if n ≤ chunks.flatten.length then
      ∃ rest, receiveExact chunks n = .ok (chunks.flatten.take n, rest) ∧
        rest.flatten = chunks.flatten.drop n
    else receiveExact chunks n = .error (.protocol "TRUNCATED_FRAME") := by
  induction chunks generalizing n with
  | nil =>
    cases n with
    | zero => exact ⟨[], rfl, rfl⟩
    | succ n => exact if_neg (Nat.not_succ_le_zero n) ▸ rfl
  | cons c chunks ih =>
    cases n with
    | zero =>
      rw [if_pos (Nat.zero_le _)]
      exact ⟨c :: chunks, rfl, rfl⟩
    | succ n =>
      rw [flatten_cons, length_append, receiveExact]
      by_cases hchunk : c.length ≤ n + 1
      · -- the chunk is used up
        have hrest := ih (n + 1 - c.length)
        rw [if_pos hchunk]
        by_cases hlength : n + 1 ≤ c.length + chunks.flatten.length
        · rw [if_pos hlength]
          rw [if_pos (by omega)] at hrest
          obtain ⟨rest, hreceive, hflatten⟩ := hrest
          refine ⟨rest, ?_, ?_⟩
          · rw [hreceive, take_append, take_of_length_le hchunk]
            rfl
          · rw [hflatten, drop_append, drop_of_length_le hchunk, nil_append]
        · rw [if_neg hlength]
          rw [if_neg (by omega)] at hrest
          rw [hrest]
          rfl
      · rw [if_neg hchunk, if_pos (by omega)]
        refine ⟨c.drop (n + 1) :: chunks, ?_, ?_⟩
        · rw [take_append_of_le_length (by omega)]
        · rw [flatten_cons, drop_append_of_le_length (by omega)]

/-- The body that the bytes declare, if it is there and not too large. -/
def bodyOf (maxBytes : Nat) (bytes : List UInt8) : Except Failure (List UInt8) :=
  if bytes.length < 4 then .error (.protocol "TRUNCATED_FRAME")
  else if unpack (bytes.take 4) = 0 then .error (.protocol "INVALID_MESSAGE")
  else if maxBytes < unpack (bytes.take 4) then .error (.protocol "FRAME_TOO_LARGE")
  else if bytes.length < 4 + unpack (bytes.take 4) then .error (.protocol "TRUNCATED_FRAME")
  else .ok ((bytes.drop 4).take (unpack (bytes.take 4)))

/-- `receive_frame` on the bytes. -/
theorem receiveFrame_eq (limit maxBytes : Nat) (c : Connection) :
    receiveFrame limit maxBytes c = (bodyOf maxBytes c.bytes).bind (decodeBody limit) := by
  have hheader := receiveExact_flatten c.chunks 4
  unfold receiveFrame bodyOf Connection.bytes
  by_cases hshort : c.chunks.flatten.length < 4
  · rw [if_neg (by omega)] at hheader
    rw [hheader, if_pos hshort]
    rfl
  rw [if_pos (by omega)] at hheader
  obtain ⟨rest, hreceive, hflatten⟩ := hheader
  rw [hreceive, if_neg hshort]
  show (if unpack (c.chunks.flatten.take 4) = 0 then _ else _) = _
  by_cases hzero : unpack (c.chunks.flatten.take 4) = 0
  · rw [if_pos hzero, if_pos hzero]
    rfl
  rw [if_neg hzero, if_neg hzero]
  by_cases hlarge : maxBytes < unpack (c.chunks.flatten.take 4)
  · rw [if_pos hlarge, if_pos hlarge]
    rfl
  rw [if_neg hlarge, if_neg hlarge]
  have hbody := receiveExact_flatten rest (unpack (c.chunks.flatten.take 4))
  rw [hflatten, length_drop] at hbody
  by_cases htruncated : c.chunks.flatten.length < 4 + unpack (c.chunks.flatten.take 4)
  · rw [if_neg (by omega)] at hbody
    rw [if_pos htruncated, hbody]
    rfl
  · rw [if_pos (by omega)] at hbody
    obtain ⟨rest', hreceive', -⟩ := hbody
    rw [if_neg htruncated, hreceive']
    rfl

variable {limit maxBytes : Nat}

theorem receiveFrame_of_body {c : Connection} {body : List UInt8}
    (h : bodyOf maxBytes c.bytes = .ok body) :
    receiveFrame limit maxBytes c = decodeBody limit body := by
  rw [receiveFrame_eq, h]
  rfl

/-! ### The length and the text -/

theorem unpack_pack {n : Nat} (h : n < 2 ^ 32) : unpack (pack n) = n := by
  simp only [unpack, pack, foldl_cons, foldl_nil, UInt8.toNat_ofNat']
  omega

theorem decodeUtf8_utf8 (t : List Char) : decodeUtf8 (utf8 t) = some t := by
  have hencode : (utf8 t).toByteArray = t.utf8Encode := rfl
  rw [decodeUtf8, hencode, List.utf8Decode?_utf8Encode]
  rfl

theorem bodyOf_frame {maxBytes : Nat} {body rest : List UInt8} (hne : body ≠ [])
    (hmax : body.length ≤ maxBytes) (hlength : body.length < 2 ^ 32) :
    bodyOf maxBytes (pack body.length ++ body ++ rest) = .ok body := by
  have hheader : (pack body.length ++ body ++ rest).take 4 = pack body.length := rfl
  have hdrop : (pack body.length ++ body ++ rest).drop 4 = body ++ rest := rfl
  have hcount : (pack body.length ++ body ++ rest).length = 4 + (body.length + rest.length) := by
    rw [append_assoc, length_append, length_append]
    rfl
  have hpos := length_pos_of_ne_nil hne
  rw [bodyOf, hheader, hdrop, hcount, unpack_pack hlength, if_neg (by omega), if_neg (by omega),
    if_neg (by omega), if_neg (by omega), take_left]

/-! ### What is encoded -/

structure Message where
  payload : Json
  object : isObject payload = true
  distinct : payload.Distinct

variable {payload : Json}

theorem body_ne_nil (h : payload.Plain) : body payload ≠ [] := by
  intro hnil
  have hdecode := decodeUtf8_utf8 (text payload)
  rw [show utf8 (text payload) = utf8 [] from hnil, decodeUtf8_utf8] at hdecode
  obtain ⟨c, hc, -⟩ := starts_text h
  rw [← Option.some.inj hdecode] at hc
  cases hc

theorem encodeFrame_of_plain (hplain : payload.Plain) (hdepth : payload.depth ≤ limit) :
    encodeFrame limit maxBytes payload =
      if maxBytes < (body payload).length then .error (.protocol "FRAME_TOO_LARGE")
      else if 2 ^ 32 ≤ (body payload).length then .error (.raised "struct.error")
      else .ok (pack (body payload).length ++ body payload) := by
  obtain ⟨hcheck, hencodable⟩ := check_iff.mpr ⟨hplain, hdepth⟩
  simp only [encodeFrame, hcheck, hencodable, Bool.true_eq_false, if_false, body_ne_nil hplain]

theorem encodeFrame_of_not_plain (h : ¬ (payload.Plain ∧ payload.depth ≤ limit)) :
    encodeFrame limit maxBytes payload = .error (.protocol "INVALID_MESSAGE") ∨
      encodeFrame limit maxBytes payload = .error (.raised "RecursionError") := by
  unfold encodeFrame
  cases hcheck : check limit payload with
  | error e =>
    cases e with
    | value => exact Or.inl rfl
    | recursion => exact Or.inr rfl
  | ok _ =>
    have hencodable : payload.encodable = false := by
      rw [← Bool.not_eq_true]
      exact fun hencodable => h (check_iff.mp ⟨hcheck, hencodable⟩)
    exact Or.inl (if_pos hencodable)

theorem of_encodeFrame {frame : List UInt8} (h : encodeFrame limit maxBytes payload = .ok frame) :
    payload.Plain ∧ payload.depth ≤ limit ∧ (body payload).length ≤ maxBytes ∧
      (body payload).length < 2 ^ 32 ∧ frame = pack (body payload).length ++ body payload := by
  by_cases hwritable : payload.Plain ∧ payload.depth ≤ limit
  · obtain ⟨hplain, hdepth⟩ := hwritable
    rw [encodeFrame_of_plain hplain hdepth] at h
    split at h
    · cases h
    · split at h
      · cases h
      · exact ⟨hplain, hdepth, by omega, by omega, (Except.ok.inj h).symm⟩
  · rcases encodeFrame_of_not_plain hwritable with herror | herror
    · cases herror.symm.trans h
    · cases herror.symm.trans h

theorem of_loads {limit : Nat} {t : List Char} (h : loads limit t = .ok payload) :
    ∃ d, parse limit t = .ok d ∧ d.eval = payload := by
  obtain ⟨d, hparse, heval⟩ := map_ok h
  exact ⟨d, hparse, heval⟩

theorem decodeBody_of_loads {limit : Nat} {body : List UInt8} {t : List Char}
    (hdecode : decodeUtf8 body = some t) (hloads : loads limit t = .ok payload)
    (hobject : isObject payload = true) : decodeBody limit body = .ok payload := by
  simp only [decodeBody, hdecode, hloads, hobject, if_true]

theorem decodeBody_body {limit : Nat} (hobject : isObject payload = true)
    (hplain : payload.Plain) (hdistinct : payload.Distinct) :
    decodeBody limit (body payload) = .ok payload ↔ payload.depth ≤ limit := by
  have hdecode : decodeUtf8 (body payload) = some (text payload) := decodeUtf8_utf8 _
  constructor
  · intro h
    simp only [decodeBody, hdecode] at h
    cases hloads : loads limit (text payload) with
    | error e =>
      rw [hloads] at h
      cases e with
      | value => cases h
      | recursion => cases h
    | ok q =>
      rw [hloads] at h
      dsimp only at h
      split at h
      · cases h
        obtain ⟨d, hparse, heval⟩ := of_loads hloads
        rw [← heval, depth_eval]
        exact (parse_within hparse).2
      · cases h
  · intro hdepth
    exact decodeBody_of_loads hdecode (loads_text hplain hdistinct hdepth) hobject

/-- **What is encoded is received**, if it is not nested too deeply for the reader. -/
theorem receiveFrame_encoded {dumpLimit loadLimit maxBytes : Nat} {p : Message}
    {frame : List UInt8} (h : encodeFrame dumpLimit maxBytes p.payload = .ok frame)
    {c : Connection} (hc : frame <+: c.bytes) :
    receiveFrame loadLimit maxBytes c = .ok p.payload ↔ p.payload.depth ≤ loadLimit := by
  obtain ⟨hplain, -, hmax, hlength, rfl⟩ := of_encodeFrame h
  obtain ⟨rest, hrest⟩ := hc
  rw [receiveFrame_of_body (hrest ▸ bodyOf_frame (body_ne_nil hplain) hmax hlength)]
  exact decodeBody_body p.object hplain p.distinct

/-! ### What is received -/

/-- A frame from which the payload is received, or one that would be too large. -/
def Resent (loadLimit maxBytes : Nat) (payload : Json) : Except Failure (List UInt8) → Prop
  | .ok frame => ∀ c : Connection, c.bytes = frame → receiveFrame loadLimit maxBytes c = .ok payload
  | .error (.protocol code) => code = "FRAME_TOO_LARGE"
  | .error (.raised exception) => exception = "struct.error"

/-- An object that can be encoded again, or a `DaemonProtocolError`. -/
def Accepted (dumpLimit loadLimit maxBytes : Nat) : Except Failure Json → Prop
  | .ok payload => Resent loadLimit maxBytes payload (encodeFrame dumpLimit maxBytes payload)
  | .error (.protocol _) => True
  | .error (.raised _) => False

def Understood (dumpLimit loadLimit maxBytes : Nat) (c : Connection) : Prop :=
  Accepted dumpLimit loadLimit maxBytes (receiveFrame loadLimit maxBytes c)

/-- The text of the body is not nested too deeply; and if it is an object, then no number literal
of it overflows and no surrogate is unpaired. -/
def Sound (dumpLimit loadLimit maxBytes : Nat) (bytes : List UInt8) : Prop :=
  ∀ body t, bodyOf maxBytes bytes = .ok body → decodeUtf8 body = some t →
    parse loadLimit t ≠ .error .recursion ∧
      ∀ es, parse loadLimit t = .ok (.obj es) →
        (Doc.obj es).Plain ∧ (Doc.obj es).depth ≤ dumpLimit

theorem resent_iff {dumpLimit loadLimit maxBytes : Nat} {p : Message}
    (hdepth : p.payload.depth ≤ loadLimit) :
    Resent loadLimit maxBytes p.payload (encodeFrame dumpLimit maxBytes p.payload) ↔
      p.payload.Plain ∧ p.payload.depth ≤ dumpLimit := by
  constructor
  · intro hresent
    by_contra hnot
    rcases (encodeFrame_of_not_plain hnot : encodeFrame dumpLimit maxBytes p.payload = _ ∨ _)
      with herror | herror
    · rw [herror] at hresent
      have hcode : "INVALID_MESSAGE" = "FRAME_TOO_LARGE" := hresent
      exact absurd hcode (by decide)
    · rw [herror] at hresent
      have hexception : "RecursionError" = "struct.error" := hresent
      exact absurd hexception (by decide)
  · rintro ⟨hplain, hdump⟩
    cases hencode : encodeFrame dumpLimit maxBytes p.payload with
    | ok frame =>
      intro c hc
      exact (receiveFrame_encoded hencode (hc ▸ prefix_refl _)).mpr hdepth
    | error e =>
      rw [encodeFrame_of_plain hplain hdump] at hencode
      split at hencode
      · obtain rfl := Except.error.inj hencode
        rfl
      · split at hencode
        · obtain rfl := Except.error.inj hencode
          rfl
        · cases hencode

theorem not_understood {dumpLimit loadLimit maxBytes : Nat} {c : Connection}
    (hreceive : receiveFrame loadLimit maxBytes c = .ok payload)
    (hencode : encodeFrame dumpLimit maxBytes payload = .error (.protocol "INVALID_MESSAGE")) :
    ¬ Understood dumpLimit loadLimit maxBytes c := by
  intro hunderstood
  rw [Understood, hreceive, Accepted, hencode] at hunderstood
  have hcode : "INVALID_MESSAGE" = "FRAME_TOO_LARGE" := hunderstood
  exact absurd hcode (by decide)

theorem decodeBody_error {limit : Nat} {body : List UInt8} {t : List Char}
    (hdecode : decodeUtf8 body = some t) (hrecursion : parse limit t ≠ .error .recursion)
    (hobject : ∀ es, parse limit t ≠ .ok (.obj es)) :
    ∃ code, decodeBody limit body = .error (.protocol code) := by
  cases hparse : parse limit t with
  | error e =>
    cases e with
    | value =>
      have hloads : loads limit t = .error .value := by
        rw [loads, hparse]
        rfl
      simp only [decodeBody, hdecode, hloads]
      exact ⟨_, rfl⟩
    | recursion => exact absurd hparse hrecursion
  | ok d =>
    have hloads : loads limit t = .ok d.eval := by
      rw [loads, hparse]
      rfl
    have hnot : isObject d.eval = false := by
      cases d with
      | obj es => exact absurd hparse (hobject es)
      | _ => rfl
    simp only [decodeBody, hdecode, hloads, hnot, Bool.false_eq_true, if_false]
    exact ⟨_, rfl⟩

theorem understood_iff (dumpLimit loadLimit maxBytes : Nat) (c : Connection) :
    Understood dumpLimit loadLimit maxBytes c ↔ Sound dumpLimit loadLimit maxBytes c.bytes := by
  unfold Understood
  rw [receiveFrame_eq]
  cases hbody : bodyOf maxBytes c.bytes with
  | error e =>
    have hprotocol : ∃ code, e = .protocol code := by
      unfold bodyOf at hbody
      repeat' split at hbody
      all_goals first | exact ⟨_, (Except.error.inj hbody).symm⟩ | cases hbody
    obtain ⟨code, rfl⟩ := hprotocol
    exact iff_of_true trivial fun _ _ h => by cases hbody.symm.trans h
  | ok body =>
    show Accepted dumpLimit loadLimit maxBytes (decodeBody loadLimit body) ↔ _
    cases hdecode : decodeUtf8 body with
    | none =>
      have hinvalid : decodeBody loadLimit body = .error (.protocol "INVALID_JSON") := by
        simp only [decodeBody, hdecode]
      rw [hinvalid]
      refine iff_of_true trivial fun body' t hbody' hdecode' => ?_
      obtain rfl := Except.ok.inj (hbody.symm.trans hbody')
      cases hdecode.symm.trans hdecode'
    | some t =>
      have hsound : Sound dumpLimit loadLimit maxBytes c.bytes ↔
          parse loadLimit t ≠ .error .recursion ∧ ∀ es, parse loadLimit t = .ok (.obj es) →
            (Doc.obj es).Plain ∧ (Doc.obj es).depth ≤ dumpLimit := by
        constructor
        · exact fun h => h body t hbody hdecode
        · intro h body' t' hbody' hdecode'
          obtain rfl := Except.ok.inj (hbody.symm.trans hbody')
          obtain rfl := Option.some.inj (hdecode.symm.trans hdecode')
          exact h
      rw [hsound]
      by_cases hrecursion : parse loadLimit t = .error .recursion
      · have hraised : decodeBody loadLimit body = .error (.raised "RecursionError") := by
          simp only [decodeBody, hdecode, loads, hrecursion, Except.map]
        rw [hraised]
        exact iff_of_false id fun h => h.1 hrecursion
      · by_cases hobject : ∃ es, parse loadLimit t = .ok (.obj es)
        · obtain ⟨es, hparse⟩ := hobject
          obtain ⟨hfit, hdepth⟩ := parse_within hparse
          rw [← depth_eval] at hdepth
          have hpayload : decodeBody loadLimit body = .ok (Doc.obj es).eval := by
            simp only [decodeBody, hdecode, loads, hparse, Except.map]
            exact if_pos rfl
          rw [hpayload]
          -- the object that is received is a message
          let p : Message := ⟨(Doc.obj es).eval, rfl, distinct_eval _⟩
          refine Iff.trans (resent_iff (p := p) hdepth) ?_
          rw [plain_eval_iff hfit, depth_eval]
          constructor
          · refine fun h => ⟨hrecursion, fun es' hparse' => ?_⟩
            obtain rfl := Doc.obj.inj (Except.ok.inj (hparse.symm.trans hparse'))
            exact h
          · exact fun h => h.2 es hparse
        · push Not at hobject
          obtain ⟨code, hcode⟩ := decodeBody_error hdecode hrecursion hobject
          rw [hcode]
          exact iff_of_true trivial ⟨hrecursion, fun es hparse => absurd hparse (hobject es)⟩

/-- **The frames of the daemon.** -/
theorem frame_laws (dumpLimit loadLimit maxBytes : Nat) :
    (∀ (p : Message) (frame : List UInt8), encodeFrame dumpLimit maxBytes p.payload = .ok frame →
      ∀ c : Connection, frame <+: c.bytes →
        (receiveFrame loadLimit maxBytes c = .ok p.payload ↔ p.payload.depth ≤ loadLimit)) ∧
    ∀ c : Connection, Understood dumpLimit loadLimit maxBytes c ↔
      Sound dumpLimit loadLimit maxBytes c.bytes :=
  ⟨fun _ _ h _ hc => receiveFrame_encoded h hc, understood_iff dumpLimit loadLimit maxBytes⟩

/-! ### An object that cannot be sent back -/

def surrogateText : List Char :=
  '{' :: mark :: 'a' :: mark :: ':' :: mark :: backslash :: 'u' :: 'd' :: '8' :: '0' :: '0' :: mark ::
    ['}']

def surrogateDoc : Doc := .obj [(⟨[97]⟩, .str ⟨[0xD800]⟩)]

def surrogateObject : Json := .obj [(⟨[97]⟩, .str ⟨[0xD800]⟩)]

theorem parse_surrogate : parse 9 surrogateText = .ok surrogateDoc := by
  have hkey : ∀ y, scanString ('a' :: mark :: ':' :: y) = some ([97], ':' :: y) := by
    intro y
    rw [scanString_plain (by decide) (by decide) (by decide), scanString_mark]
    rfl
  have hunit : unit? 'd' '8' '0' '0' = some 0xD800 := by decide
  have hstring : scanString (backslash :: 'u' :: 'd' :: '8' :: '0' :: '0' :: mark :: ['}']) =
      some ([0xD800], ['}']) := by
    simp only [scanString_backslash, if_true, hunit, Option.bind_some, scanString_mark,
      Option.map_some, pairCons]
  have hvalue : ∀ fuel, scanValue (fuel + 1) 8 (skip (mark :: backslash :: 'u' :: 'd' :: '8' :: '0' ::
      '0' :: mark :: ['}'])) = .ok (.str ⟨[0xD800]⟩, ['}']) := by
    intro fuel
    rw [skip_cons (by decide)]
    exact scanValue_string fuel 8 hstring
  have hmembers : ∀ fuel, scanMembers (fuel + 2) 8 (skip (mark :: 'a' :: mark :: ':' :: mark ::
      backslash :: 'u' :: 'd' :: '8' :: '0' :: '0' :: mark :: ['}'])) =
      .ok ([(⟨[97]⟩, .str ⟨[0xD800]⟩)], []) := by
    intro fuel
    rw [skip_cons (by decide)]
    exact scanMembers_last (hkey _) (hvalue fuel)
  have hscan : ∀ fuel, scanValue (fuel + 3) 9 surrogateText = .ok (surrogateDoc, []) := by
    intro fuel
    rw [surrogateText, scanValue_object, hmembers, skip_cons (by decide), if_neg (by decide)]
    rfl
  have hskip : skip surrogateText = surrogateText := skip_cons (by decide) _
  have hnil : skip [] = [] := rfl
  have hfuel : 2 * surrogateText.length + 1 = 26 + 3 := rfl
  simp [parse, hskip, hfuel, hscan, hnil, bind, Except.bind]

theorem loads_surrogate : loads 9 surrogateText = .ok surrogateObject := by
  rw [loads, parse_surrogate]
  rfl

def surrogateConnection : Connection where
  chunks := [pack 14 ++ utf8 surrogateText]
  nonempty := fun c hc => by
    rw [List.mem_singleton.mp hc]
    exact List.cons_ne_nil _ _

/-- The daemon receives the object, but cannot encode it. -/
theorem surrogate_refused :
    receiveFrame 9 maxFrameBytes surrogateConnection = .ok surrogateObject ∧
      encodeFrame 9 maxFrameBytes surrogateObject = .error (.protocol "INVALID_MESSAGE") ∧
      ¬ Understood 9 9 maxFrameBytes surrogateConnection := by
  have hlength : (utf8 surrogateText).length = 14 := by decide
  have hbytes : surrogateConnection.bytes = pack 14 ++ utf8 surrogateText ++ [] := by
    simp only [Connection.bytes, surrogateConnection, List.flatten_cons, List.flatten_nil]
  have hbody : bodyOf maxFrameBytes surrogateConnection.bytes = .ok (utf8 surrogateText) := by
    have hne : utf8 surrogateText ≠ [] := List.ne_nil_of_length_pos (by rw [hlength]; decide)
    have hmax : (utf8 surrogateText).length ≤ maxFrameBytes := by
      rw [hlength]
      decide
    have hframe : bodyOf maxFrameBytes
        (pack (utf8 surrogateText).length ++ utf8 surrogateText ++ []) = .ok (utf8 surrogateText) :=
      bodyOf_frame hne hmax (by rw [hlength]; decide)
    rw [hlength] at hframe
    rw [hbytes, hframe]
  have hdecoded : decodeBody 9 (utf8 surrogateText) = .ok surrogateObject :=
    decodeBody_of_loads (decodeUtf8_utf8 surrogateText) loads_surrogate rfl
  have hreceive : receiveFrame 9 maxFrameBytes surrogateConnection = .ok surrogateObject :=
    (receiveFrame_of_body hbody).trans hdecoded
  have hencode : encodeFrame 9 maxFrameBytes surrogateObject =
      .error (.protocol "INVALID_MESSAGE") := by
    have hcheck : check 9 surrogateObject = .ok () := rfl
    have hencodable : surrogateObject.encodable = false := by decide
    simp only [encodeFrame, hcheck, hencodable, if_true]
  exact ⟨hreceive, hencode, not_understood hreceive hencode⟩

end Rosclaw.Protocol

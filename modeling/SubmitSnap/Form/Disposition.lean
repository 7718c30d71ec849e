import SubmitSnap.Form.Sound
import SubmitSnap.Identity.Search
import SubmitSnap.Interleave.Footprint
import SubmitSnap.Text.Header

/-!
# What a download is saved as

A file that was uploaded goes out under the name its sender gave it, cleaned; an export goes out
under the name of its form. The first goes through an encoder that replaces whatever the quotes
could not hold and percent-encodes the rest, the second between two quotes as it is.

## The argument

What a header means is for its reader to say, so there is a reader (`Header`), which is not made
from the code that writes the header. Both directions are needed: a header that is legal and means
what it should, and for exports the exact condition on the name.

The encoder of downloads has to be right for every name at all, and it is enough to look at single
characters: each of them is replaced by one that is quotable, or by bytes of a token. The name of
a form is only stripped of quotes, so everything else must be quotable already. A file's name is
that of the form with an extension that is quotable, hence the condition on the form.

## Main results

* `downloadDisposed` — a reader of the header finds two parameters, and the second one is the name.
* `exportDisposed_iff` — the header of an export holds what it should exactly when the name of the
  form has no backslash and no control character but the tab.
* `export_submissions_disposed` — every export that is answered is one of those.
-/

namespace SubmitSnap

open Interleave Header

/-! ### Downloads -/

/-- `char::is_ascii_graphic`. -/
def is_ascii_graphic (c : Char) : Bool := 0x21 ≤ c.toNat && c.toNat ≤ 0x7e

/-- What stands for a character between the quotes. -/
def quoted_char (character : Char) : Char :=
  if character = '"' || character = '\\' then '_'
  else if is_ascii_graphic character || character = ' ' then character
  else '_'

/-- A byte that is not percent-encoded: `u8::is_ascii_alphanumeric`, or one of `-._~`. -/
def is_unreserved (byte : UInt8) : Bool :=
  isDigit byte || isAlpha byte || byte == 45 || byte == 46 || byte == 95 || byte == 126

/-- One digit of the format `02X`. -/
def upper_hex_digit (n : ℕ) : Char := if n < 10 then Char.ofNat (48 + n) else Char.ofNat (55 + n)

def encoded_byte (byte : UInt8) : List Char :=
  if is_unreserved byte then [Char.ofNat byte.toNat]
  else ['%', upper_hex_digit (byte.toNat / 16), upper_hex_digit (byte.toNat % 16)]

def quoted (filename : String) : String := String.ofList (filename.toList.map quoted_char)

def encoded (filename : String) : String := String.ofList ((bytes filename).flatMap encoded_byte)

/-- The `Content-Disposition` of an attachment, in the quoted and in the extended form. -/
def content_disposition (filename : String) : String :=
  "attachment; filename=\"" ++ quoted filename ++ "\"; filename*=UTF-8''" ++ encoded filename

/-! ### Exports -/

def ExportFormat.extension : ExportFormat → String
  | .csv => "csv"
  | .json => "json"

/-- What an export is to be saved as. -/
def export_filename (form : FormRecord) (format : ExportFormat) : String :=
  form.name ++ "-submissions." ++ format.extension

structure ExportResponse where
  content_type : String
  content_disposition : String
  body : List (Except Failure String)

/-- The streaming response an export is written into. -/
def export_response (stream : ExportStream) : ExportResponse where
  content_type := stream.content_type
  content_disposition := "attachment; filename=\"" ++ replace stream.filename '"' "" ++ "\""
  body := stream.body

/-! ### What a reader makes of them

Both properties are stated with the reader of the module on headers: the value parses, as one
attachment, and its parameters are the ones that were meant. -/

/-- A character of printable ASCII. -/
def is_printable (c : Char) : Prop := 0x20 ≤ c.toNat ∧ c.toNat ≤ 0x7e

instance : DecidablePred is_printable := fun c =>
  inferInstanceAs (Decidable (0x20 ≤ c.toNat ∧ c.toNat ≤ 0x7e))

/-- A header that is one attachment with two parameters; the quoted one has a character for each of
the name, and the extended one is the name. -/
structure DownloadDisposed (filename quoted encoded : String) : Prop where
  value : content_disposition filename =
    "attachment; filename=\"" ++ quoted ++ "\"; filename*=UTF-8''" ++ encoded
  printable : ∀ c ∈ (content_disposition filename).toList, is_printable c
  unbroken : '"' ∉ quoted.toList ∧ '\\' ∉ quoted.toList
  length : quoted.length = filename.length
  decodes : percentDecode (bytes encoded) = bytes filename
  parse : Disposition.parse (bytes (content_disposition filename)) = some {
    kind := bytes "attachment"
    params := [(bytes "filename", bytes quoted),
      (bytes "filename*", bytes ("UTF-8''" ++ encoded))] }

/-- A name that is not empty, short, in one line and without path structure. -/
structure CleanName (name : String) : Prop where
  ne_empty : name ≠ ""
  length_le : name.length ≤ 200
  plain : ∀ c ∈ name.toList, is_control c = false ∧ c ≠ '/' ∧ c ≠ '\\'

/-- A header that may be sent, and is one attachment whose only parameter is the name. -/
structure ExportDisposed (stream : ExportStream) : Prop where
  legal : Legal (bytes (export_response stream).content_disposition)
  parse : Disposition.parse (bytes (export_response stream).content_disposition) = some {
    kind := bytes "attachment"
    params := [(bytes "filename", bytes (replace stream.filename '"' ""))] }

/-- A character that survives between quotes. -/
def is_quotable (c : Char) : Prop := c ≠ '\\' ∧ c.toNat ≠ 0x7f ∧ (0x20 ≤ c.toNat ∨ c = '\t')

instance : DecidablePred is_quotable := fun c =>
  inferInstanceAs (Decidable (c ≠ '\\' ∧ c.toNat ≠ 0x7f ∧ (0x20 ≤ c.toNat ∨ c = '\t')))

variable {filename name : String} {c : Char} {byte : UInt8} {form : FormRecord}
  {format : ExportFormat} {stream : ExportStream}

/-! ### The quoted form -/

theorem quoted_char_cases : quoted_char c = '_' ∨
    quoted_char c = c ∧ c ≠ '"' ∧ c ≠ '\\' ∧ (is_ascii_graphic c = true ∨ c = ' ') := by
  unfold quoted_char
  split
  · exact .inl rfl
  · next hspecial =>
    obtain ⟨hquote, hslash⟩ : c ≠ '"' ∧ c ≠ '\\' := by simpa using hspecial
    split
    · next hkept => exact .inr ⟨rfl, hquote, hslash, by simpa using hkept⟩
    · exact .inl rfl

theorem is_printable_quoted_char : is_printable (quoted_char c) := by
  rcases quoted_char_cases (c := c) with h | ⟨h, -, -, hgraphic | rfl⟩
  · rw [h]
    decide
  · rw [h]
    simp only [is_ascii_graphic, Bool.and_eq_true, decide_eq_true_eq] at hgraphic
    exact ⟨by omega, hgraphic.2⟩
  · decide

theorem quoted_char_ne : quoted_char c ≠ '"' ∧ quoted_char c ≠ '\\' := by
  rcases quoted_char_cases (c := c) with h | ⟨h, hquote, hslash, -⟩
  · rw [h]
    decide
  · rw [h]
    exact ⟨hquote, hslash⟩

/-! ### The extended form -/

theorem forall_byte {P : UInt8 → Prop} (h : ∀ n < 256, P (UInt8.ofNat n)) (byte : UInt8) : P byte :=
  UInt8.ofNat_toNat (x := byte) ▸ h byte.toNat byte.toNat_lt

theorem bytes_encoded_byte : (encoded_byte byte).flatMap String.utf8EncodeChar =
    percentEncode is_unreserved byte := by
  refine forall_byte (P := fun byte => (encoded_byte byte).flatMap String.utf8EncodeChar =
    percentEncode is_unreserved byte) ?_ byte
  decide +kernel

theorem encoded_byte_plain :
    ∀ c ∈ encoded_byte byte, is_printable c ∧ isToken (UInt8.ofNat c.toNat) = true := by
  refine forall_byte (P := fun byte => ∀ c ∈ encoded_byte byte,
    is_printable c ∧ isToken (UInt8.ofNat c.toNat) = true) (fun n hn => forall_of_all ?_) byte
  revert n
  decide +kernel

theorem bytes_encoded (filename : String) : bytes (encoded filename) =
    (bytes filename).flatMap (percentEncode is_unreserved) := by
  rw [encoded, bytes_ofList, List.flatMap_assoc]
  exact congrArg ((bytes filename).flatMap ·) (funext fun _ => bytes_encoded_byte)

/-! ### Names -/

theorem mem_of_mem_trim {s : String} (h : c ∈ (trim s).toList) : c ∈ s.toList := by
  rw [trim, String.toList_ofList, List.mem_reverse] at h
  have h := (List.dropWhile_sublist _).subset h
  exact (List.dropWhile_sublist _).subset (List.mem_reverse.mp h)

theorem not_mem_basename {s : String} (h : c ∈ (basename s).toList) : c ≠ '/' ∧ c ≠ '\\' := by
  rw [basename, String.toList_ofList, List.mem_reverse] at h
  simpa using List.mem_takeWhile_imp h

theorem clean_clean_filename (raw : Option String) : CleanName (clean_filename raw) := by
  unfold clean_filename
  extract_lets base cleaned
  split
  · exact ⟨by decide, by decide, forall_of_all (by decide)⟩
  · next hne =>
    refine ⟨fun heq => hne (by rw [heq]; rfl), ?_, fun c hc => ?_⟩
    · rw [String.length_ofList]
      exact List.length_take_le _ _
    · rw [String.toList_ofList] at hc
      obtain ⟨hbase, hcontrol⟩ := List.mem_filter.mp (List.mem_of_mem_take hc)
      exact ⟨by simpa using hcontrol, not_mem_basename (mem_of_mem_trim hbase)⟩

theorem isName_attachment : Disposition.IsName (bytes "attachment") :=
  ⟨by decide, forall_of_all (by decide)⟩

theorem isName_filename : Disposition.IsName (bytes "filename") :=
  ⟨by decide, forall_of_all (by decide)⟩

theorem isName_filename_ext : Disposition.IsName (bytes "filename*") :=
  ⟨by decide, forall_of_all (by decide)⟩

/-- What survives between quotes, in bytes. -/
theorem byte_quotable (h : ∀ c ∈ name.toList, is_quotable c ∧ c ≠ '"') :
    ∀ byte ∈ bytes name, isLegal byte = true ∧ byte ≠ 34 ∧ byte ≠ 92 := by
  intro byte hbyte
  rw [isLegal_iff, ← UInt8.toNat_inj.ne, ← UInt8.toNat_inj.ne]
  rcases cases_of_mem_bytes hbyte with ⟨c, hc, heq⟩ | hhigh
  · obtain ⟨⟨hslash, hdelete, hcontrol⟩, hquote⟩ := h c hc
    rw [ne_eq, ← Char.toNat_inj] at hslash hquote
    rw [← Char.toNat_inj] at hcontrol
    rw [← heq]
    exact ⟨by tauto, hquote, hslash⟩
  · simp only [UInt8.reduceToNat]
    omega

theorem is_quotable_of_printable (h : is_printable c) (hslash : c ≠ '\\') : is_quotable c :=
  ⟨hslash, by unfold is_printable at h; omega, .inl h.1⟩

theorem mem_quoted (h : c ∈ (quoted filename).toList) : ∃ c', c = quoted_char c' := by
  rw [quoted, String.toList_ofList] at h
  obtain ⟨c', -, hc⟩ := List.mem_map.mp h
  exact ⟨c', hc.symm⟩

theorem mem_encoded (h : c ∈ (encoded filename).toList) : ∃ byte, c ∈ encoded_byte byte := by
  rw [encoded, String.toList_ofList] at h
  obtain ⟨byte, -, hc⟩ := List.mem_flatMap.mp h
  exact ⟨byte, hc⟩

theorem quotable_quoted (filename : String) :
    ∀ c ∈ (quoted filename).toList, is_quotable c ∧ c ≠ '"' := by
  intro c hc
  obtain ⟨c, rfl⟩ := mem_quoted hc
  exact ⟨is_quotable_of_printable is_printable_quoted_char quoted_char_ne.2, quoted_char_ne.1⟩

/-- The extended form is a token. -/
theorem token_encoded (filename : String) :
    Disposition.IsName (bytes ("UTF-8''" ++ encoded filename)) := by
  rw [bytes_append]
  refine ⟨List.append_ne_nil_of_left_ne_nil (by decide) _, fun byte hbyte => ?_⟩
  rcases List.mem_append.mp hbyte with hcharset | hencoded
  · have hall : ∀ byte ∈ bytes "UTF-8''", isToken byte = true := forall_of_all (by decide)
    exact hall byte hcharset
  · obtain ⟨c, hc, hbyte⟩ := List.mem_flatMap.mp hencoded
    obtain ⟨_, hc⟩ := mem_encoded hc
    obtain ⟨⟨-, hle⟩, htoken⟩ := encoded_byte_plain c hc
    rw [utf8EncodeChar_of_ascii (by omega), List.mem_singleton] at hbyte
    rw [hbyte]
    exact htoken

/-! ### Reading the header -/

/-- What is read of a header depends on what is read behind its first quote. -/
theorem parse_attachment (value : String) :
    Disposition.parse (bytes ("attachment; filename=\"" ++ value)) =
      (Disposition.readQuoted (bytes value)).bind fun (name, rest) =>
        (Disposition.readParams ((bytes value).length + 21) rest).map fun params =>
          ⟨bytes "attachment", (bytes "filename", name) :: params⟩ := by
  have hopening : bytes ("attachment; filename=\"" ++ value) =
      bytes "attachment" ++ 59 :: 32 :: (bytes "filename" ++ 61 :: 34 :: bytes value) := by
    rw [bytes_append]
    rfl
  have hfuel : (bytes "attachment").length + (bytes "filename").length + (bytes value).length + 3 =
      (bytes value).length + 21 := by
    rw [show (bytes "attachment").length = 10 from rfl, show (bytes "filename").length = 8 from rfl]
    omega
  rw [hopening, Disposition.parse_quoted isName_attachment isName_filename, hfuel]

/-- The parameter behind the quotes. -/
theorem readParams_encoded (filename : String) (fuel : ℕ) :
    Disposition.readParams (fuel + 1) (bytes ("; filename*=UTF-8''" ++ encoded filename)) =
      some [(bytes "filename*", bytes ("UTF-8''" ++ encoded filename))] := by
  have hopening : bytes ("; filename*=UTF-8''" ++ encoded filename) =
      59 :: 32 :: (bytes "filename*" ++ 61 :: bytes ("UTF-8''" ++ encoded filename)) := by
    rw [bytes_append, bytes_append]
    rfl
  have hvalue : Disposition.readValue (bytes ("UTF-8''" ++ encoded filename)) =
      some (bytes ("UTF-8''" ++ encoded filename), []) := by
    have htoken : Disposition.readToken (bytes ("UTF-8''" ++ encoded filename) ++ []) =
      some (bytes ("UTF-8''" ++ encoded filename), []) :=
        Disposition.readToken_append (token_encoded filename) nofun
    rw [List.append_nil, bytes_append] at htoken
    rw [bytes_append]
    exact htoken
  rw [hopening, Disposition.readParams_cons isName_filename_ext, hvalue, Option.bind_some]
  exact congrArg (Option.map _) (Disposition.readParams_nil fuel)

theorem content_disposition_eq : content_disposition filename =
    "attachment; filename=\"" ++ (quoted filename ++
      ("\"; filename*=UTF-8''" ++ encoded filename)) := by
  unfold content_disposition
  simp only [String.append_assoc]

theorem is_printable_content_disposition :
    ∀ c ∈ (content_disposition filename).toList, is_printable c := by
  have hopening : ∀ c ∈ "attachment; filename=\"".toList, is_printable c :=
    forall_of_all (by decide +kernel)
  have hbetween : ∀ c ∈ "\"; filename*=UTF-8''".toList, is_printable c :=
    forall_of_all (by decide +kernel)
  intro c hc
  rw [content_disposition_eq, String.toList_append, String.toList_append,
    String.toList_append] at hc
  rcases List.mem_append.mp hc with hc | hc
  · exact hopening c hc
  rcases List.mem_append.mp hc with hc | hc
  · obtain ⟨c, rfl⟩ := mem_quoted hc
    exact is_printable_quoted_char
  rcases List.mem_append.mp hc with hc | hc
  · exact hbetween c hc
  · obtain ⟨_, hc⟩ := mem_encoded hc
    exact (encoded_byte_plain c hc).1

theorem parse_content_disposition (filename : String) :
    Disposition.parse (bytes (content_disposition filename)) = some {
      kind := bytes "attachment"
      params := [(bytes "filename", bytes (quoted filename)),
        (bytes "filename*", bytes ("UTF-8''" ++ encoded filename))] } := by
  have hbetween : bytes ("\"; filename*=UTF-8''" ++ encoded filename) =
      34 :: bytes ("; filename*=UTF-8''" ++ encoded filename) := by
    rw [bytes_append, bytes_append]
    rfl
  rw [content_disposition_eq, parse_attachment, bytes_append, hbetween,
    Disposition.readQuoted_body (byte_quotable (quotable_quoted filename)), Option.bind_some]
  exact congrArg (Option.map _) (readParams_encoded filename _)

/-- **A download is saved under its name**, whatever its sender has called it. -/
theorem downloadDisposed (raw : Option String) : CleanName (clean_filename raw) ∧
    ∃ quoted encoded, DownloadDisposed (clean_filename raw) quoted encoded := by
  refine ⟨clean_clean_filename raw, _, _, {
    value := rfl
    printable := is_printable_content_disposition
    unbroken := ?_
    length := ?_
    decodes := ?_
    parse := parse_content_disposition _ }⟩
  · exact ⟨fun h => (quotable_quoted _ _ h).2 rfl, fun h => (quotable_quoted _ _ h).1.1 rfl⟩
  · rw [quoted, String.length_ofList, List.length_map, String.length_toList]
  · rw [bytes_encoded]
    exact percentDecode_percentEncode rfl _

/-! ### The name of a form between quotes

Only double quotes are removed from the name. Everything else goes between the quotes as it is, so
the header is right if and only if nothing else in it is special: no backslash, which the reader
would take for an escape, and no control character, which may not be sent at all. -/

theorem mem_replace_quote {s : String} :
    c ∈ (replace s '"' "").toList ↔ c ∈ s.toList ∧ c ≠ '"' := by
  rw [toList_replace, List.mem_flatMap]
  constructor
  · rintro ⟨c', hc', hc⟩
    split at hc
    · cases hc
    · next hne =>
      obtain rfl := List.mem_singleton.mp hc
      exact ⟨hc', by simpa using hne⟩
  · rintro ⟨hc, hne⟩
    exact ⟨c, hc, by simp [hne]⟩

/-- Quotes are removed, and are quotable. -/
theorem forall_quotable_replace {s : String} :
    (∀ c ∈ (replace s '"' "").toList, is_quotable c) ↔ ∀ c ∈ s.toList, is_quotable c := by
  have hquote : is_quotable '"' := ⟨by decide, by decide, by decide⟩
  constructor
  · intro h c hc
    by_cases heq : c = '"'
    · rw [heq]
      exact hquote
    · exact h c (mem_replace_quote.mpr ⟨hc, heq⟩)
  · exact fun h c hc => h c (mem_replace_quote.mp hc).1

/-- What is not quotable in the name of the file is in the name of the form. -/
theorem forall_quotable_filename : (∀ c ∈ (export_filename form format).toList, is_quotable c) ↔
    ∀ c ∈ form.name.toList, is_quotable c := by
  have hplain : ∀ {s : String}, (∀ c ∈ s.toList, is_printable c ∧ c ≠ '\\') →
      ∀ c ∈ s.toList, is_quotable c :=
    fun h c hc => is_quotable_of_printable (h c hc).1 (h c hc).2
  rw [export_filename, String.toList_append, String.toList_append, List.forall_mem_append,
    List.forall_mem_append, and_assoc]
  refine and_iff_left ⟨hplain (forall_of_all (by decide +kernel)), ?_⟩
  cases format with
  | csv => exact hplain (forall_of_all (by decide +kernel))
  | json => exact hplain (forall_of_all (by decide +kernel))

theorem parse_export_response :
    Disposition.parse (bytes (export_response stream).content_disposition) =
      (Disposition.readQuoted (bytes (replace stream.filename '"' "") ++ [34])).bind
        fun (name, rest) => (Disposition.readParams
          ((bytes (replace stream.filename '"' "" ++ "\"")).length + 21) rest).map fun params =>
            ⟨bytes "attachment", (bytes "filename", name) :: params⟩ := by
  have hquote : bytes (replace stream.filename '"' "" ++ "\"") =
      bytes (replace stream.filename '"' "") ++ [34] := bytes_append
  rw [export_response, String.append_assoc, parse_attachment, hquote]

theorem ExportDisposed.quotable (h : ExportDisposed stream) :
    ∀ c ∈ (replace stream.filename '"' "").toList, is_quotable c := by
  intro c hc
  have hbyte (hascii : c.toNat < 128) :
      UInt8.ofNat c.toNat ∈ bytes (replace stream.filename '"' "") := (mem_bytes_iff hascii).mpr hc
  have hlegal (hascii : c.toNat < 128) : c.toNat = 9 ∨ 32 ≤ c.toNat ∧ c.toNat ≠ 127 := by
    have hmem : UInt8.ofNat c.toNat ∈ bytes (export_response stream).content_disposition := by
      rw [export_response, bytes_append, bytes_append]
      exact List.mem_append_left _ (List.mem_append_right _ (hbyte hascii))
    rw [← toNat_ofNat_of_ascii hascii]
    exact isLegal_iff.mp (h.legal _ hmem)
  refine ⟨fun heq => ?_, ?_, ?_⟩
  · -- The byte behind a backslash is read, and not the backslash.
    subst heq
    have hquote : 34 ∉ bytes (replace stream.filename '"' "") := fun hmem =>
      (mem_replace_quote.mp ((mem_bytes_iff (c := '"') (by decide)).mp hmem)).2 rfl
    have hparse := parse_export_response.symm.trans h.parse
    obtain ⟨⟨name, rest⟩, hread, hparams⟩ := Option.bind_eq_some_iff.mp hparse
    obtain ⟨params, -, heq⟩ := Option.map_eq_some_iff.mp hparams
    cases heq
    exact Disposition.readQuoted_ne hquote (hbyte (by decide)) hread
  · intro heq
    have := hlegal (by omega)
    omega
  · rw [← Char.toNat_inj]
    by_cases hascii : c.toNat < 128
    · rcases hlegal hascii with htab | hprintable
      · exact .inr htab
      · exact .inl hprintable.1
    · exact .inl (by omega)

theorem exportDisposed_of_quotable
    (h : ∀ c ∈ (replace stream.filename '"' "").toList, is_quotable c) : ExportDisposed stream := by
  have hbytes := byte_quotable fun c hc => ⟨h c hc, (mem_replace_quote.mp hc).2⟩
  have hopening : ∀ byte ∈ bytes "attachment; filename=\"", isLegal byte = true :=
    forall_of_all (by decide +kernel)
  have hclosing : ∀ byte ∈ bytes "\"", isLegal byte = true := forall_of_all (by decide)
  refine ⟨fun byte hbyte => ?_, ?_⟩
  · rw [export_response, bytes_append, bytes_append] at hbyte
    rcases List.mem_append.mp hbyte with hbyte | hbyte
    · exact (List.mem_append.mp hbyte).elim (hopening byte) fun hname => (hbytes byte hname).1
    · exact hclosing byte hbyte
  · rw [parse_export_response, Disposition.readQuoted_body hbytes, Option.bind_some]
    exact congrArg (Option.map _) (Disposition.readParams_nil _)

/-- The header of an export depends on what it is saved as, and on nothing else. -/
theorem exportDisposed_iff_filename :
    ExportDisposed stream ↔ ∀ c ∈ stream.filename.toList, is_quotable c := by
  rw [← forall_quotable_replace]
  exact ⟨ExportDisposed.quotable, exportDisposed_of_quotable⟩

/-- **An export is saved under its name exactly when the name of its form is quotable.** -/
theorem exportDisposed_iff (h : stream.filename = export_filename form format) :
    ExportDisposed stream ↔ ∀ c ∈ form.name.toList, is_quotable c := by
  rw [exportDisposed_iff_filename, h]
  exact forall_quotable_filename

/-- Every export the service answers is named after a form, and it is the name of this form that
decides. -/
theorem export_submissions_disposed {d : Deployment} {organization_id form_id actor_id : Uuid}
    {rounds : ℕ} :
    (FormService.export_submissions d organization_id form_id actor_id format rounds).Does
      (fun _ => True) (fun _ _ => True) fun answer => ∀ stream, answer = .ok stream →
        ∃ form, stream.filename = export_filename form format ∧
          (ExportDisposed stream ↔ ∀ c ∈ form.name.toList, is_quotable c) := by
  have hdoes {ε α : Type} (x : Code ε α) : x.Does (fun _ => True) (fun _ _ => True) fun _ => True :=
    (Script.issues_of_forall (fun _ => trivial) x).does
  refine (hdoes _).bind (fun _ _ => ?_) fun e _ => nofun
  refine (hdoes _).bind (fun form _ => ?_) fun e _ => nofun
  refine (hdoes _).bind (fun keys _ => ?_) fun e _ => nofun
  refine (hdoes _).bind (fun (rows, ended) _ => ?_) fun e _ => nofun
  rintro stream heq
  have hname : stream.filename = export_filename form format := by
    cases heq
    cases format <;> rfl
  refine ⟨form, hname, ?_⟩
  rw [exportDisposed_iff_filename, hname]
  exact forall_quotable_filename

/-- The form is to have a name of two lines. -/
def twoLines : UpdateFormRequest where
  name := some "Q1\nQ2"
  schema := none
  notify_emails := none
  success_message := none
  redirect_url := none
  honeypot_enabled := none

/-- An owner renames the form, and exports its submissions. -/
def exportsRenamed : List Step :=
  [.spawn 1 (.update_form 1 2 twoLines 8), .step 1 {}, .step 1 {}, .step 1 {}, .step 1 {},
    .step 1 {}, .spawn 0 (.export_submissions 1 2 8 .csv 9), .step 0 {}, .step 0 {}, .step 0 {},
    .step 0 {}]

/-- **The name of a form is only checked for its length**, and a line feed may not stand in a
header. -/
theorem not_exportDisposed : ¬ ∀ w p stream, Reaches .sample anything (World.start .sample) w →
    w.Returned p (.export_submissions 1 2 8 .csv 9) stream → ExportDisposed stream := by
  intro hall
  let w := Deployment.sample.play anything exportsRenamed .sample
  have hreturned : ∃ stream, w.Returned 0 (.export_submissions 1 2 8 .csv 9) stream ∧
      stream.filename = "Q1\nQ2-submissions.csv" := ⟨_, rfl, rfl⟩
  obtain ⟨stream, hreturned, hname⟩ := hreturned
  have hdisposed := hall w 0 stream (Deployment.sample.reaches_play _ exportsRenamed _) hreturned
  have hmem : '\n' ∈ (replace stream.filename '"' "").toList := by
    rw [hname]
    decide +kernel
  exact absurd (hdisposed.quotable '\n' hmem) (by decide)

/-- The name of a form that is quotable. -/
theorem exportDisposed_contact :
    ExportDisposed ⟨"text/csv", "Contact-submissions.csv", [], true⟩ := by
  have hname : "Contact-submissions.csv" = export_filename .sample .csv := rfl
  exact (exportDisposed_iff hname).mpr (forall_of_all (by decide))

end SubmitSnap

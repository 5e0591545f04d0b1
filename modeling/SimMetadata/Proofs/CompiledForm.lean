import Mathlib.Data.List.Infix
import SimMetadata.CompiledForm

/-!
# Reading a compiled form undoes compiling, and accepts nothing else

A form is its header and its payload, and the header is determined by the payload. So bytes are
accepted exactly when they are the form with the payload that is found in them, and a form cannot
be changed in its header alone. The digest is used as a function to thirty-two bytes; nothing here
depends on which one it is.

## Main definitions

* `CompiledForm.Cut`: bytes cut where the fields of a form begin, whatever the fields hold.
* `CompiledForm.payloadByOffset?`: the payload read by the offsets of the fields, where a range
  that does not lie within the bytes is an answer of its own.

## Main results

* `Text.exists_pieces`: the text between two pairs of carriage return and line feed is kept.
* `CompiledForm.payload?_eq_some_iff`: which bytes are accepted.
* `CompiledForm.payloadByOffset?_eq`: no range that is read by its offsets lies outside.
* `CompiledForm.compiled_exact`: all of this together.
-/

namespace SimMetadata

namespace Text

/-- The pair that ends a line. -/
def crlf : List Char := ['\r', '\n']

/-- **What happens to line endings.** A text is some pieces without a pair in them, with a pair
between neighbours, and the result has a line feed in the place of each pair. -/
theorem exists_pieces (cs : List Char) :
    ∃ pieces : List (List Char), pieces ≠ [] ∧ (∀ piece ∈ pieces, ¬ crlf <:+: piece)
      ∧ cs = crlf.intercalate pieces ∧ unixLines cs = ['\n'].intercalate pieces := by
  fun_induction unixLines cs with
  | case1 cs ih =>
    obtain ⟨pieces, hne, hfree, hcs, hlines⟩ := ih
    obtain ⟨piece, rest, rfl⟩ := List.exists_cons_of_ne_nil hne
    refine ⟨[] :: piece :: rest, by simp, ?_, ?_, ?_⟩
    · intro q hq
      rcases List.mem_cons.mp hq with rfl | hq
      · simp [crlf]
      · exact hfree q hq
    · rw [hcs]
      simp [List.intercalate, crlf]
    · rw [hlines]
      simp [List.intercalate]
  | case2 c cs hpair ih =>
    obtain ⟨pieces, hne, hfree, hcs, hlines⟩ := ih
    obtain ⟨piece, rest, rfl⟩ := List.exists_cons_of_ne_nil hne
    refine ⟨(c :: piece) :: rest, by simp, ?_, ?_, ?_⟩
    · intro q hq
      rcases List.mem_cons.mp hq with rfl | hq
      · intro hinfix
        rcases List.infix_cons_iff.mp hinfix with hprefix | hinfix
        · -- a pair at the beginning of the longer piece would begin the text
          obtain ⟨tail, htail⟩ := hprefix
          simp only [crlf, List.cons_append, List.nil_append, List.cons.injEq] at htail
          obtain ⟨rfl, rfl⟩ := htail
          cases rest with
          | nil => exact hpair _ rfl (by simpa [List.intercalate] using hcs)
          | cons next rest => exact hpair _ rfl (by simpa [List.intercalate] using hcs)
        · exact hfree piece List.mem_cons_self hinfix
      · exact hfree q (List.mem_cons_of_mem _ hq)
    · rw [hcs]
      cases rest <;> simp [List.intercalate]
    · rw [hlines]
      cases rest <;> simp [List.intercalate]
  | case3 => exact ⟨[[]], by simp, by simp [crlf], rfl, rfl⟩

/-- A piece without a pair is kept, if it is not its end that makes a pair with what follows. -/
theorem unixLines_append {piece rest : List Char} (h : ¬ crlf <:+: piece)
    (hrest : ¬ ['\n'] <+: rest) : unixLines (piece ++ rest) = piece ++ unixLines rest := by
  induction piece with
  | nil => rfl
  | cons c piece ih =>
    rw [List.infix_cons_iff, not_or] at h
    have hpair : ∀ tail, c = '\r' → piece ++ rest = '\n' :: tail → False := by
      rintro tail rfl htail
      cases piece with
      | nil => exact hrest ⟨tail, htail.symm⟩
      | cons next piece =>
        obtain ⟨rfl, -⟩ := List.cons.inj htail
        exact h.1 ⟨piece, rfl⟩
    rw [List.cons_append, unixLines.eq_2 _ _ hpair, ih h.2, List.cons_append]

/-- Whatever pieces a text is taken apart into, the result is made of them. -/
theorem unixLines_intercalate {pieces : List (List Char)}
    (h : ∀ piece ∈ pieces, ¬ crlf <:+: piece) :
    unixLines (crlf.intercalate pieces) = ['\n'].intercalate pieces := by
  induction pieces with
  | nil => rfl
  | cons piece pieces ih =>
    obtain ⟨hpiece, hpieces⟩ := List.forall_mem_cons.mp h
    cases pieces with
    | nil =>
      have hkept : unixLines (piece ++ []) = piece ++ unixLines [] :=
        unixLines_append hpiece (by simp)
      rw [List.intercalate_singleton, List.intercalate_singleton]
      rwa [unixLines_nil, List.append_nil] at hkept
    | cons next pieces =>
      have hcrlf : ¬ ['\n'] <+: crlf ++ crlf.intercalate (next :: pieces) := by simp [crlf]
      have hpair : unixLines (crlf ++ crlf.intercalate (next :: pieces))
          = ['\n'] ++ unixLines (crlf.intercalate (next :: pieces)) := unixLines_crlf _
      rw [List.intercalate_cons_cons, List.intercalate_cons_cons, List.append_assoc,
        unixLines_append hpiece hcrlf, hpair, ih hpieces, List.append_assoc]

end Text

/-- Bytes of one length that hold one number are the same. -/
theorem eq_of_ofLittleEndian_eq {b c : Bytes} (hlength : b.length = c.length)
    (h : ofLittleEndian b = ofLittleEndian c) : b = c := by
  rw [← littleEndian_ofLittleEndian b, ← littleEndian_ofLittleEndian c, hlength, h]

namespace CompiledForm

variable {b c p q : Bytes}

/-! ### Cutting bytes into fields -/

theorem splitBytes?_append {count : Nat} {x y : Bytes} (h : x.length = count) :
    splitBytes? count (x ++ y) = some (x, y) := by
  subst h
  simp [splitBytes?]

theorem splitBytes?_eq_some {count : Nat} {x y : Bytes} (h : splitBytes? count b = some (x, y)) :
    x.length = count ∧ b = x ++ y := by
  rw [splitBytes?] at h
  split at h
  · next hcount =>
    cases h
    exact ⟨List.length_take_of_le hcount, (List.take_append_drop count b).symm⟩
  · cases h

/-- Bytes cut where the fields of a form begin. -/
structure Cut where
  mark : Bytes
  version : Bytes
  length : Bytes
  digest : Bytes
  payload : Bytes
  length_mark : mark.length = 4
  length_version : version.length = 2
  length_length : length.length = 8
  length_digest : digest.length = 32

namespace Cut

attribute [simp] length_mark length_version length_length length_digest

/-- The bytes that are cut. -/
def bytes (f : Cut) : Bytes := f.mark ++ (f.version ++ (f.length ++ (f.digest ++ f.payload)))

/-- Whether every field is what the payload demands. -/
def IsRight (f : Cut) : Prop :=
  f.mark = CompiledForm.mark ∧ ofLittleEndian f.version = CompiledForm.version
    ∧ ofLittleEndian f.length = f.payload.length % Nat.pow 256 8
    ∧ f.digest = Digest.Sha256.digest f.payload

instance (f : Cut) : Decidable f.IsRight := inferInstanceAs (Decidable (_ ∧ _))

end Cut

/-- Everything that is as long as a header can be cut. -/
theorem exists_cut (h : 46 ≤ b.length) : ∃ f : Cut, f.bytes = b := by
  have hmark : (b.take 4).length = 4 := by
    rw [List.length_take]
    omega
  have hversion : ((b.drop 4).take 2).length = 2 := by
    rw [List.length_take, List.length_drop]
    omega
  have hlength : (((b.drop 4).drop 2).take 8).length = 8 := by
    rw [List.length_take, List.length_drop, List.length_drop]
    omega
  have hdigest : ((((b.drop 4).drop 2).drop 8).take 32).length = 32 := by
    rw [List.length_take, List.length_drop, List.length_drop, List.length_drop]
    omega
  refine ⟨⟨_, _, _, _, (((b.drop 4).drop 2).drop 8).drop 32, hmark, hversion, hlength, hdigest⟩, ?_⟩
  simp only [Cut.bytes, List.take_append_drop]

theorem Cut.length_bytes (f : Cut) : f.bytes.length = 46 + f.payload.length := by
  simp [bytes]
  omega

/-- Reading the fields one by one finds them all, and then compares them. -/
theorem Cut.payload?_bytes (f : Cut) :
    payload? f.bytes = if f.IsRight then some f.payload else none := by
  simp only [payload?, bytes, splitBytes?_append f.length_mark,
    splitBytes?_append f.length_version, splitBytes?_append f.length_length,
    splitBytes?_append f.length_digest, Option.bind_eq_bind, Option.bind_some]
  rfl

theorem payload?_eq_none_of_short (h : b.length < 46) : payload? b = none := by
  rw [Option.eq_none_iff_forall_ne_some]
  intro p hp
  obtain ⟨⟨m, b₁⟩, hm, hp⟩ := Option.bind_eq_some_iff.mp hp
  obtain ⟨⟨v, b₂⟩, hv, hp⟩ := Option.bind_eq_some_iff.mp hp
  obtain ⟨⟨l, b₃⟩, hl, hp⟩ := Option.bind_eq_some_iff.mp hp
  obtain ⟨⟨g, b₄⟩, hg, -⟩ := Option.bind_eq_some_iff.mp hp
  obtain ⟨hm, rfl⟩ := splitBytes?_eq_some hm
  obtain ⟨hv, rfl⟩ := splitBytes?_eq_some hv
  obtain ⟨hl, rfl⟩ := splitBytes?_eq_some hl
  obtain ⟨hg, rfl⟩ := splitBytes?_eq_some hg
  simp only [List.length_append] at h
  omega

/-! ### Which bytes are accepted -/

/-- Right fields are the header of their payload. -/
theorem Cut.isRight_iff (f : Cut) : f.IsRight ↔ f.bytes = ofPayload f.payload := by
  have hexpected : ofPayload f.payload = CompiledForm.mark ++ (littleEndian 2 CompiledForm.version
      ++ (littleEndian 8 f.payload.length ++ (Digest.Sha256.digest f.payload ++ f.payload))) := by
    simp only [ofPayload, header, List.append_assoc]
  rw [hexpected]
  constructor
  · rintro ⟨hmark, hversion, hlength, hdigest⟩
    have hversion : f.version = littleEndian 2 CompiledForm.version := by
      apply eq_of_ofLittleEndian_eq
      · rw [f.length_version, length_littleEndian]
      · rw [hversion, ofLittleEndian_littleEndian]
        rfl
    have hlength : f.length = littleEndian 8 f.payload.length := by
      apply eq_of_ofLittleEndian_eq
      · rw [f.length_length, length_littleEndian]
      · rw [hlength, ofLittleEndian_littleEndian]
    rw [bytes, hmark, hversion, hlength, hdigest]
  · intro h
    obtain ⟨hmark, h⟩ := List.append_inj h (by rw [f.length_mark]; rfl)
    obtain ⟨hversion, h⟩ := List.append_inj h (by rw [f.length_version, length_littleEndian])
    obtain ⟨hlength, h⟩ := List.append_inj h (by rw [f.length_length, length_littleEndian])
    obtain ⟨hdigest, -⟩ := List.append_inj h (by rw [f.length_digest, Digest.Sha256.length_digest])
    refine ⟨hmark, ?_, ?_, hdigest⟩
    · rw [hversion, ofLittleEndian_littleEndian]
      rfl
    · rw [hlength, ofLittleEndian_littleEndian]

theorem length_header (p : Bytes) : (header p).length = 46 := by
  simp only [header, List.length_append, length_littleEndian, Digest.Sha256.length_digest]
  rfl

theorem drop_ofPayload (p : Bytes) : (ofPayload p).drop 46 = p := by
  rw [ofPayload, List.drop_left' (length_header p)]

/-- **Which bytes are accepted**: the form with the payload, and nothing else. -/
theorem payload?_eq_some_iff : payload? b = some p ↔ b = ofPayload p := by
  by_cases hshort : b.length < 46
  · rw [payload?_eq_none_of_short hshort]
    constructor
    · intro h
      cases h
    · rintro rfl
      rw [ofPayload, List.length_append, length_header] at hshort
      omega
  · obtain ⟨f, rfl⟩ := exists_cut (Nat.le_of_not_lt hshort)
    have hpayload : f.bytes.drop 46 = f.payload := by
      have hcut : f.bytes = (f.mark ++ f.version ++ f.length ++ f.digest) ++ f.payload := by
        simp only [Cut.bytes, List.append_assoc]
      rw [hcut]
      exact List.drop_left' (by simp)
    rw [f.payload?_bytes]
    constructor
    · intro h
      split at h
      · next hright =>
        cases h
        exact f.isRight_iff.mp hright
      · cases h
    · intro h
      have hp : f.payload = p := by rw [← hpayload, h, drop_ofPayload]
      subst hp
      rw [if_pos (f.isRight_iff.mpr h)]

/-! ### Reading by offsets -/

/-- The bytes from one offset up to another, if they lie within. -/
def range? (b : Bytes) (first last : Nat) : Option Bytes :=
  if first ≤ last ∧ last ≤ b.length then some ((b.drop first).take (last - first)) else none

/-- The payload of a form whose fields are read by their offsets, once the bytes are known to be as
long as a header. The outer `none` stands for a range that does not lie within the bytes. -/
def payloadByOffset? (b : Bytes) : Option (Option Bytes) :=
  if b.length < 46 then some none
  else do
    if (← range? b 0 4) ≠ mark then return none
    if ofLittleEndian (← range? b 4 6) ≠ version then return none
    let payload ← range? b 46 b.length
    if ofLittleEndian (← range? b 6 14) ≠ payload.length % Nat.pow 256 8 then return none
    if Digest.Sha256.digest payload ≠ (← range? b 14 46) then return none
    return some payload

theorem range?_eq_some {x y z : Bytes} {first last : Nat} (hb : b = x ++ (y ++ z))
    (hfirst : x.length = first) (hlast : x.length + y.length = last) :
    range? b first last = some y := by
  subst hb hfirst hlast
  have hwithin : x.length ≤ x.length + y.length
      ∧ x.length + y.length ≤ (x ++ (y ++ z)).length := by
    simp only [List.length_append]
    omega
  rw [range?, if_pos hwithin, List.drop_left, Nat.add_sub_cancel_left, List.take_left]

/-- **No range lies outside**, and the offsets agree with the lengths of the fields. -/
theorem payloadByOffset?_eq (b : Bytes) : payloadByOffset? b = some (payload? b) := by
  by_cases hshort : b.length < 46
  · rw [payloadByOffset?, if_pos hshort, payload?_eq_none_of_short hshort]
  · obtain ⟨f, rfl⟩ := exists_cut (Nat.le_of_not_lt hshort)
    have hmark : range? f.bytes 0 4 = some f.mark :=
      range?_eq_some (x := []) rfl rfl (by simp)
    have hversion : range? f.bytes 4 6 = some f.version :=
      range?_eq_some (x := f.mark) rfl (by simp) (by simp)
    have hlength : range? f.bytes 6 14 = some f.length :=
      range?_eq_some (x := f.mark ++ f.version) (z := f.digest ++ f.payload)
        (by simp [Cut.bytes]) (by simp) (by simp)
    have hdigest : range? f.bytes 14 46 = some f.digest :=
      range?_eq_some (x := f.mark ++ f.version ++ f.length) (z := f.payload)
        (by simp [Cut.bytes]) (by simp) (by simp)
    have hpayload : range? f.bytes 46 f.bytes.length = some f.payload :=
      range?_eq_some (x := f.mark ++ f.version ++ f.length ++ f.digest) (z := [])
        (by simp [Cut.bytes]) (by simp) (by simp [f.length_bytes])
    rw [payloadByOffset?, if_neg hshort, hmark, hversion, hlength, hdigest, hpayload,
      f.payload?_bytes]
    simp only [Option.bind_eq_bind, Option.bind_some, Cut.IsRight]
    grind

/-! ### Compiling -/

/-- Compiling fails exactly on bytes that are no text, and reports them under the given path. -/
theorem ofSource?_eq_error_iff {reported : Path} {source : Bytes} {failure : Failure} :
    ofSource? reported source = .error failure ↔
      (∀ text : String, source ≠ Text.utf8 text) ∧ failure = .invalidSource reported := by
  rw [ofSource?]
  cases htext : Text.ofUtf8? source with
  | none =>
    have hnone : ∀ text : String, source ≠ Text.utf8 text := by
      intro text h
      rw [Text.ofUtf8?_eq_some_iff.mpr h] at htext
      cases htext
    constructor
    · intro h
      cases h
      exact ⟨hnone, rfl⟩
    · rintro ⟨-, rfl⟩
      rfl
  | some text =>
    constructor
    · intro h
      cases h
    · rintro ⟨hnone, -⟩
      exact absurd (Text.ofUtf8?_eq_some_iff.mp htext) (hnone text)

/-- The form of a text is the form with its payload. -/
theorem ofSource?_utf8 (reported : Path) (text : String) :
    ofSource? reported (Text.utf8 text) = .ok (ofPayload (payloadOfText text)) := by
  rw [ofSource?, Text.ofUtf8?_utf8]

/-- A form that is compiled from a source has the text of the source as its payload. -/
theorem payload?_of_ofSource? {reported : Path} {source form : Bytes}
    (h : ofSource? reported source = .ok form) :
    ∃ text : String, source = Text.utf8 text ∧ payload? form = some (payloadOfText text) := by
  rw [ofSource?] at h
  split at h
  · cases h
  · next text htext =>
    cases h
    exact ⟨text, Text.ofUtf8?_eq_some_iff.mp htext, payload?_eq_some_iff.mpr rfl⟩

/-- **Reading undoes compiling, and accepts nothing else.** Every text compiles, to a form whose
payload is the text with each pair of carriage return and line feed made a line feed; compiling
fails exactly on bytes that are no text. Bytes have a payload exactly if they are the mark, the
version, the length of the payload, its digest and the payload, and reading them by offsets never
leaves them. So a payload has one form, and bytes that differ from a form in the forty-six bytes of
the header alone are refused. -/
theorem compiled_exact :
    (∀ (reported : Path) (text : String), ∃ (form : Bytes) (pieces : List (List Char)),
      ofSource? reported (Text.utf8 text) = .ok form
        ∧ (∀ piece ∈ pieces, ¬ Text.crlf <:+: piece) ∧ text.toList = Text.crlf.intercalate pieces
        ∧ payload? form = some (Text.utf8 (String.ofList (['\n'].intercalate pieces)))) ∧
    (∀ (reported : Path) (source : Bytes) (failure : Failure),
      ofSource? reported source = .error failure ↔
        (∀ text : String, source ≠ Text.utf8 text) ∧ failure = .invalidSource reported) ∧
    (∀ b p : Bytes, payload? b = some p ↔
      b = Text.utf8 "SGPC" ++ [1, 0] ++ littleEndian 8 p.length ++ Digest.Sha256.digest p ++ p) ∧
    (∀ b : Bytes, payloadByOffset? b = some (payload? b)) ∧
    (∀ b c p : Bytes, payload? b = some p → payload? c = some p → b = c) ∧
    (∀ b c p : Bytes, payload? b = some p → c.drop 46 = b.drop 46 → c ≠ b → payload? c = none) := by
  refine ⟨fun reported text => ?_, fun _ _ _ => ofSource?_eq_error_iff,
    fun b p => payload?_eq_some_iff, payloadByOffset?_eq, fun b c p hb hc => ?_,
    fun b c p hb hdrop hne => ?_⟩
  · obtain ⟨pieces, -, hfree, htext, hlines⟩ := Text.exists_pieces text.toList
    refine ⟨_, pieces, ofSource?_utf8 reported text, hfree, htext, ?_⟩
    rw [payload?_eq_some_iff, payloadOfText, hlines]
  · rw [payload?_eq_some_iff.mp hb, payload?_eq_some_iff.mp hc]
  · rw [Option.eq_none_iff_forall_ne_some]
    intro q hq
    have hform := payload?_eq_some_iff.mp hb
    have hform' := payload?_eq_some_iff.mp hq
    have hpayload : q = p := by rw [← drop_ofPayload q, ← hform', hdrop, hform, drop_ofPayload]
    exact hne (by rw [hform', hform, hpayload])

/-- A form whose first byte is changed. -/
theorem changed_mark_refused :
    let form := ofPayload (Text.utf8 "pass\n")
    payload? form = some (Text.utf8 "pass\n") ∧ (0 :: form.tail).drop 46 = form.drop 46
      ∧ 0 :: form.tail ≠ form ∧ payload? (0 :: form.tail) = none := by
  intro form
  have hform : payload? form = some (Text.utf8 "pass\n") := by decide +kernel
  have hrest : (0 :: form.tail).drop 46 = form.drop 46 := by decide +kernel
  have hne : 0 :: form.tail ≠ form := by decide +kernel
  have hrefused := compiled_exact.2.2.2.2.2 form (0 :: form.tail) _ hform hrest hne
  exact ⟨hform, hrest, hne, hrefused⟩

end CompiledForm

end SimMetadata

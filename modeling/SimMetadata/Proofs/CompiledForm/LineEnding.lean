import SimMetadata.Proofs.CompiledForm
import SimMetadata.Proofs.Text.Utf8

/-!
# How often a source has to be compiled

Compiling takes one carriage return away in front of each line feed. If more than one stands there,
a pair of carriage return and line feed is left in the payload, and compiling the payload takes the
next one away. So the pairs are gone after as many rounds as there are carriage returns in the
longest run before a line feed, and only from then on does compiling change nothing.

## Main definitions

* `Text.lineFeedAfter`: a line feed after so many carriage returns.
* `CompiledForm.payloadAfter?`: what a source becomes in some rounds of compiling.

## Main results

* `Text.lineFeedAfter_infix_unixLines_iff`: a round takes one carriage return away.
* `CompiledForm.payloadAfter?_infix_iff`: when a pair is left after some rounds.
* `CompiledForm.lineEndings_settle`: when the payload has no pair, and compiles to the same form.
-/

namespace SimMetadata

namespace Text

variable {cs : List Char} {n : Nat}

/-- A line feed after so many carriage returns. -/
def lineFeedAfter (n : Nat) : List Char := List.replicate n '\r' ++ ['\n']

theorem lineFeedAfter_succ (n : Nat) : lineFeedAfter (n + 1) = '\r' :: lineFeedAfter n := rfl

theorem lineFeedAfter_one : lineFeedAfter 1 = crlf := rfl

/-- The condition under which a character is kept: no pair begins with it. -/
theorem not_prefix_of_kept {c : Char} (h : ∀ rest, c = '\r' → cs = '\n' :: rest → False) :
    ¬ crlf <+: c :: cs := by
  rintro ⟨rest, hrest⟩
  cases hrest
  exact h rest rfl rfl

/-- A text is kept as it is exactly if it has no pair. -/
theorem unixLines_eq_self_iff : unixLines cs = cs ↔ ¬ crlf <:+: cs := by
  fun_induction unixLines cs with
  | case1 cs ih => simp [crlf, List.infix_cons_iff]
  | case2 c cs hpair ih =>
    rw [List.cons_inj_right, ih, List.infix_cons_iff, or_iff_right (not_prefix_of_kept hpair)]
  | case3 => simp [crlf]

theorem lineFeed_prefix_unixLines_iff :
    ['\n'] <+: unixLines cs ↔ ['\n'] <+: cs ∨ crlf <+: cs := by
  fun_cases unixLines cs with
  | case1 cs => simp [crlf]
  | case2 c cs hpair =>
    rw [or_iff_left (not_prefix_of_kept hpair), List.cons_prefix_cons, List.cons_prefix_cons]
    simp
  | case3 => simp [crlf]

/-- The line feeds after carriage returns with which the result begins. -/
theorem lineFeedAfter_prefix_unixLines_iff :
    lineFeedAfter (n + 1) <+: unixLines cs ↔ lineFeedAfter (n + 2) <+: cs := by
  fun_induction unixLines cs generalizing n with
  | case1 cs ih => simp [lineFeedAfter_succ]
  | case2 c cs hpair ih =>
    rw [lineFeedAfter_succ, lineFeedAfter_succ (n + 1), List.cons_prefix_cons,
      List.cons_prefix_cons]
    refine and_congr_right fun hc => ?_
    cases n with
    | zero =>
      -- No line feed comes next: with the carriage return it would be a pair.
      have hnext : ¬ ['\n'] <+: cs := by
        rintro ⟨rest, hrest⟩
        exact hpair rest hc.symm hrest.symm
      exact lineFeed_prefix_unixLines_iff.trans (or_iff_right hnext)
    | succ n => exact ih
  | case3 => simp [lineFeedAfter_succ]

/-- **A round takes one carriage return away** in front of each line feed. -/
theorem lineFeedAfter_infix_unixLines_iff :
    lineFeedAfter (n + 1) <:+: unixLines cs ↔ lineFeedAfter (n + 2) <:+: cs := by
  fun_induction unixLines cs with
  | case1 cs ih =>
    have hno : ∀ k rest, ¬ lineFeedAfter (k + 1) <+: '\n' :: rest := by
      simp [lineFeedAfter_succ]
    have hpair : ¬ lineFeedAfter (n + 2) <+: '\r' :: '\n' :: cs := by
      rw [lineFeedAfter_succ, List.cons_prefix_cons, not_and]
      exact fun _ => hno n cs
    rw [List.infix_cons_iff, or_iff_right (hno n _), ih, List.infix_cons_iff, or_iff_right hpair,
      List.infix_cons_iff, or_iff_right (hno (n + 1) cs)]
  | case2 c cs hpair ih =>
    have hprefix : lineFeedAfter (n + 1) <+: unixLines (c :: cs)
        ↔ lineFeedAfter (n + 2) <+: c :: cs := lineFeedAfter_prefix_unixLines_iff
    rw [unixLines.eq_2 _ _ hpair] at hprefix
    rw [List.infix_cons_iff, List.infix_cons_iff, hprefix, ih]
  | case3 => simp [lineFeedAfter_succ]

/-- In some rounds, one carriage return for each round. -/
theorem lineFeedAfter_infix_iterate_iff (rounds : Nat) :
    lineFeedAfter (n + 1) <:+: unixLines^[rounds] cs ↔ lineFeedAfter (n + rounds + 1) <:+: cs := by
  induction rounds generalizing cs with
  | zero => rfl
  | succ rounds ih =>
    rw [Function.iterate_succ_apply, ih, lineFeedAfter_infix_unixLines_iff]
    rfl

end Text

namespace CompiledForm

open Text (utf8 unixLines lineFeedAfter)

/-- What a source becomes in some rounds of compiling it and reading the payload. -/
def payloadAfter? (reported : Path) : Nat → Bytes → Option Bytes
  | 0, source => some source
  | rounds + 1, source => do
    payloadAfter? reported rounds (← payload? (← (ofSource? reported source).toOption))

theorem ofPayload_inj {p q : Bytes} : ofPayload p = ofPayload q ↔ p = q := by
  constructor
  · intro h
    rw [← drop_ofPayload p, h, drop_ofPayload]
  · rintro rfl
    rfl

/-- The bytes of a pair occur in the bytes of a text where the pair occurs in the text. -/
theorem pair_infix_utf8_iff {cs : List Char} :
    utf8 "\r\n" <:+: utf8 (String.ofList cs) ↔ lineFeedAfter 1 <:+: cs := by
  rw [Text.utf8_infix_iff (by decide) (by simp), @String.toList_ofList cs]
  rfl

/-- Compiling the payload of a text gives its form again exactly if the payload has no pair. -/
theorem ofSource?_payloadOfText_iff {reported : Path} {text : String} :
    ofSource? reported (payloadOfText text) = .ok (ofPayload (payloadOfText text))
      ↔ ¬ lineFeedAfter 1 <:+: unixLines text.toList := by
  rw [payloadOfText, ofSource?_utf8, Except.ok.injEq, ofPayload_inj, payloadOfText,
    Text.utf8_inj, String.ofList_inj, String.toList_ofList, Text.unixLines_eq_self_iff,
    Text.lineFeedAfter_one]

theorem payloadAfter?_utf8 (reported : Path) (rounds : Nat) (text : String) :
    payloadAfter? reported rounds (utf8 text)
      = some (utf8 (String.ofList (unixLines^[rounds] text.toList))) := by
  induction rounds generalizing text with
  | zero => simp [payloadAfter?]
  | succ rounds ih =>
    have hpayload : payload? (ofPayload (payloadOfText text)) = some (payloadOfText text) :=
      payload?_eq_some_iff.mpr rfl
    rw [payloadAfter?, ofSource?_utf8]
    simp only [Except.toOption, Option.bind_eq_bind, Option.bind_some, hpayload]
    rw [payloadOfText, ih, String.toList_ofList, Function.iterate_succ_apply]

/-- **When a pair is left** after some rounds of compiling. -/
theorem payloadAfter?_infix_iff (reported : Path) (rounds : Nat) (text : String) :
    ∃ payload, payloadAfter? reported rounds (utf8 text) = some payload
      ∧ (utf8 "\r\n" <:+: payload ↔ lineFeedAfter (rounds + 1) <:+: text.toList) := by
  refine ⟨_, payloadAfter?_utf8 reported rounds text, ?_⟩
  rw [pair_infix_utf8_iff, Text.lineFeedAfter_infix_iterate_iff (n := 0), Nat.zero_add]

/-- **How line endings settle.** Every text compiles. The payload has a pair of carriage return and
line feed exactly if a line feed of the text stands after two carriage returns, and otherwise, and
only then, the payload compiles to the same form. After some rounds of compiling a pair is left
exactly if a line feed of the text stands after more carriage returns than there were rounds. -/
theorem lineEndings_settle (reported : Path) (text : String) :
    (∃ form payload, ofSource? reported (utf8 text) = .ok form ∧ payload? form = some payload
      ∧ (utf8 "\r\n" <:+: payload ↔ ['\r', '\r', '\n'] <:+: text.toList)
      ∧ ∀ reported', ofSource? reported' payload = .ok form
        ↔ ¬ ['\r', '\r', '\n'] <:+: text.toList) ∧
    ∀ rounds, ∃ payload, payloadAfter? reported rounds (utf8 text) = some payload
      ∧ (utf8 "\r\n" <:+: payload
        ↔ List.replicate (rounds + 1) '\r' ++ ['\n'] <:+: text.toList) := by
  refine ⟨?_, fun rounds => payloadAfter?_infix_iff reported rounds text⟩
  have hround : lineFeedAfter 1 <:+: unixLines text.toList ↔ lineFeedAfter 2 <:+: text.toList :=
    Text.lineFeedAfter_infix_unixLines_iff
  refine ⟨_, _, ofSource?_utf8 reported text, payload?_eq_some_iff.mpr rfl, ?_, fun reported' => ?_⟩
  · rw [payloadOfText, pair_infix_utf8_iff, hround]
    rfl
  · rw [ofSource?_payloadOfText_iff, hround]
    rfl

/-- A line feed after two carriage returns: the payload has a pair, and compiles to another form. -/
theorem payload_keeps_pair :
    ofSource? ⟨"a.py"⟩ (utf8 "\r\r\n") = .ok (ofPayload (utf8 "\r\n"))
      ∧ payload? (ofPayload (utf8 "\r\n")) = some (utf8 "\r\n")
      ∧ ofSource? ⟨"a.py"⟩ (utf8 "\r\n") = .ok (ofPayload (utf8 "\n"))
      ∧ ofPayload (utf8 "\n") ≠ ofPayload (utf8 "\r\n") := by
  refine ⟨by decide +kernel, by decide +kernel, by decide +kernel, ?_⟩
  rw [Ne, ofPayload_inj]
  decide

end CompiledForm

end SimMetadata

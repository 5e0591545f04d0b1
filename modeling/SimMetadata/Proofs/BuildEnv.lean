import SimMetadata.Artifact.ScriptModules
import SimMetadata.Proofs.Except
import SimMetadata.Proofs.NameMap
import SimMetadata.Proofs.Text.Layout
import SimMetadata.Proofs.Text.ScriptToken

/-!
# The build environment and its rendering

Settings are added one by one, and a key that is no identifier is refused. Here such a call acts on
an environment in place, as its callers see it: it gives an answer and leaves an environment behind,
and it can be made again whatever the answer was. What some calls leave behind is what the accepted
ones among them leave behind.

The scripting layer receives the environment as a dictionary. The dictionary is read back from its
tokens, so it does not matter what the texts in it look like.

## Main definitions

* `BuildEnv.insertCall`, `BuildEnv.afterCalls`: a call in place, and what some calls leave behind.
* `BuildEnv.Built`: the environments that calls and tables give.
* `EnvValue.ofToken?`, `BuildEnv.ofDictionary?`: the settings in a dictionary.

## Main results

* `BuildEnv.settings_afterCalls`: the accepted calls alone count.
* `BuildEnv.ofDictionary?_text`: the settings are read back from the rendering.
* `BuildEnv.rendering_roundTrip`: keys are identifiers, calls that are refused change nothing, and
  renderings are read back.
-/

namespace SimMetadata

open Text

namespace BuildEnv

variable {env env' : BuildEnv} {key : String} {value : EnvValue}

/-! ### Calls -/

/-- Adding a setting to an environment in place. The key is looked at before anything is changed. -/
def insertCall (key : String) (value : EnvValue) : ExceptT Failure (StateM BuildEnv) Unit := do
  if ¬ isIdentifier key.toList then
    throw (.malformedEnv (.keyNotIdentifier key))
  modify fun env => ⟨env.settings.insert key value⟩

/-- A call that is accepted leaves behind what `insert?` gives; any other leaves the environment as
it was. -/
theorem insertCall_run (env : BuildEnv) (key : String) (value : EnvValue) :
    (insertCall key value).run.run env = match env.insert? key value with
      | .ok env' => (.ok (), env')
      | .error e => (.error e, env) := by
  rw [insertCall, insert?]
  cases h : isIdentifier key.toList <;> rfl

theorem insertCall_of_isIdentifier (h : isIdentifier key.toList = true) (env : BuildEnv)
    (value : EnvValue) :
    (insertCall key value).run.run env = (.ok (), ⟨env.settings.insert key value⟩) := by
  rw [insertCall_run, insert?, if_pos h]

/-- **A call that is refused changes nothing.** It names the key that it was refused for. -/
theorem insertCall_of_not_isIdentifier (h : isIdentifier key.toList = false) (env : BuildEnv)
    (value : EnvValue) :
    (insertCall key value).run.run env = (.error (.malformedEnv (.keyNotIdentifier key)), env) := by
  rw [insertCall_run, insert?, if_neg (by simp [h])]

/-- What a call leaves behind, whatever its answer is. -/
def afterCall (env : BuildEnv) (call : String × EnvValue) : BuildEnv :=
  ((insertCall call.1 call.2).run.run env).2

/-- What some calls leave behind, each made on what the one before it left behind. -/
def afterCalls (env : BuildEnv) (calls : List (String × EnvValue)) : BuildEnv :=
  calls.foldl afterCall env

/-- Whether a call is accepted. -/
def accepts (call : String × EnvValue) : Bool := isIdentifier call.1.toList

theorem settings_afterCall (env : BuildEnv) (call : String × EnvValue) :
    (afterCall env call).settings
      = if accepts call then env.settings.insert call.1 call.2 else env.settings := by
  rw [afterCall, accepts]
  cases h : isIdentifier call.1.toList with
  | true => rw [insertCall_of_isIdentifier h, if_pos rfl]
  | false => rw [insertCall_of_not_isIdentifier h, if_neg (by decide)]

/-- **The accepted calls alone count**, and each of them replaces what was there for its key. -/
theorem settings_afterCalls (calls : List (String × EnvValue)) (env : BuildEnv) :
    (afterCalls env calls).settings
      = (calls.filter accepts).foldl (fun m c => m.insert c.1 c.2) env.settings := by
  induction calls generalizing env with
  | nil => rfl
  | cons call calls ih =>
    rw [afterCalls, List.foldl_cons, ← afterCalls, ih, settings_afterCall]
    cases h : accepts call with
    | true => rw [List.filter_cons_of_pos h, List.foldl_cons, if_pos rfl]
    | false => rw [List.filter_cons_of_neg (by simp [h]), if_neg (by decide)]

/-- A table is accepted by way of calls. -/
theorem afterCalls_of_foldlM {entries : List (String × Toml.Value)}
    (h : entries.foldlM (fun env e => env.insertSetting? e.1 e.2) env = .ok env') :
    ∃ calls, env' = afterCalls env calls := by
  induction entries generalizing env with
  | nil =>
    cases h
    exact ⟨[], rfl⟩
  | cons e entries ih =>
    rw [List.foldlM_cons] at h
    obtain ⟨next, hnext, h⟩ := except_bind_eq_ok_iff.mp h
    obtain ⟨calls, rfl⟩ := ih h
    rw [insertSetting?] at hnext
    split at hnext
    · next v _ =>
      refine ⟨(e.1, v) :: calls, ?_⟩
      rw [afterCalls, afterCalls, List.foldl_cons, afterCall, insertCall_run, hnext]
    · cases hnext

/-- The environments that there are: what calls on the empty environment leave behind, and what
tables describe. -/
inductive Built : BuildEnv → Prop
  | calls (calls : List (String × EnvValue)) : Built (afterCalls empty calls)
  | table {entries : List (String × Toml.Value)} {env : BuildEnv} (h : ofTable? entries = .ok env) :
      Built env

theorem Built.exists_calls (h : Built env) : ∃ calls, env = afterCalls empty calls := by
  cases h with
  | calls calls => exact ⟨calls, rfl⟩
  | table h => exact afterCalls_of_foldlM h

/-- **The keys of an environment are identifiers.** -/
theorem Built.isIdentifier_of_mem (h : Built env) (hkey : key ∈ env.settings.keys) :
    isIdentifier key.toList = true := by
  obtain ⟨calls, rfl⟩ := h.exists_calls
  have hsettings : (afterCalls empty calls).settings = NameMap.ofList (calls.filter accepts) :=
    settings_afterCalls calls empty
  rw [hsettings, NameMap.mem_keys_ofList] at hkey
  obtain ⟨call, hcall, rfl⟩ := List.mem_map.mp hkey
  exact (List.mem_filter.mp hcall).2

end BuildEnv

/-! ### The dictionary -/

namespace EnvValue

/-- The token that a setting is printed as. -/
def token : EnvValue → ScriptToken
  | bool b => .word (if b then "True" else "False")
  | int n => .word (toString n)
  | str s => .string s

/-- The setting that a token stands for: a truth value, a number or a text. -/
def ofToken? : ScriptToken → Option EnvValue
  | .word w =>
    if w = "True" then some (bool true)
    else if w = "False" then some (bool false)
    else (ScriptToken.integer? w.toList).map int
  | .string s => some (str s)
  | .mark _ => none

theorem ofToken?_token (v : EnvValue) : ofToken? v.token = some v := by
  cases v with
  | bool b => cases b <;> rfl
  | int n =>
    -- A number is neither of the two words, because it is read back as a number.
    have hword : ∀ w : String, ScriptToken.integer? w.toList = none → toString n ≠ w := by
      rintro _ hnone rfl
      rw [ScriptToken.integer?_toString] at hnone
      cases hnone
    rw [token, ofToken?, if_neg (hword _ (by decide)), if_neg (hword _ (by decide)),
      ScriptToken.integer?_toString, Option.map_some]
  | str s => rfl

/-- A printed setting is one token, and ends at the comma. -/
theorem ofChars?_scriptText (v : EnvValue) (rest : List Char) :
    ScriptToken.ofChars? (v.scriptText.toList ++ ',' :: rest)
      = (ScriptToken.ofChars? (',' :: rest)).map (v.token :: ·) := by
  have hcomma : ScriptToken.isWordChar ',' = false := by decide
  cases v with
  | bool b =>
    cases b with
    | true => exact ScriptToken.ofChars?_word (w := "True".toList) (by decide) (by decide) hcomma _
    | false =>
      exact ScriptToken.ofChars?_word (w := "False".toList) (by decide) (by decide) hcomma _
  | int n => exact ScriptToken.ofChars?_int n hcomma _
  | str s =>
    rw [scriptText, ScriptLiteral.toList_quote]
    exact ScriptToken.ofChars?_quote s _

end EnvValue

namespace BuildEnv

/-- The settings in the tokens up to the closing brace, after which there has to be nothing. The
last setting may have a comma after it. -/
def ofEntries? : List ScriptToken → Option (List (String × EnvValue))
  | [.mark '\x7d'] => some []
  | [.string key, .mark ':', value, .mark '\x7d'] => do return [(key, ← EnvValue.ofToken? value)]
  | .string key :: .mark ':' :: value :: .mark ',' :: rest => do
    return (key, ← EnvValue.ofToken? value) :: (← ofEntries? rest)
  | _ => none

/-- The settings in the dictionary that a source defines, in the order in which they stand there. -/
def ofDictionary? (source : String) : Option (List (String × EnvValue)) :=
  (ScriptToken.ofChars? source.toList).bind fun
    | .word "build_env" :: .mark '=' :: .mark '\x7b' :: rest => ofEntries? rest
    | _ => none

/-- The line of a setting. -/
def entryLine (e : String × EnvValue) : String :=
  "    " ++ ScriptLiteral.quote e.1 ++ " : " ++ e.2.scriptText ++ ","

/-- The tokens of a setting. -/
def entryTokens (e : String × EnvValue) : List ScriptToken :=
  [.string e.1, .mark ':', e.2.token, .mark ',']

theorem ofChars?_entryLine (e : String × EnvValue) (rest : List Char) :
    ScriptToken.ofChars? ((entryLine e).toList ++ '\n' :: rest)
      = (ScriptToken.ofChars? rest).map (entryTokens e ++ ·) := by
  have hchars : (entryLine e).toList ++ '\n' :: rest
      = ' ' :: ' ' :: ' ' :: ' ' :: (ScriptLiteral.encode e.1.toList
        ++ ' ' :: ':' :: ' ' :: (e.2.scriptText.toList ++ ',' :: '\n' :: rest)) := by
    simp [entryLine]
  have hspace : ∀ rest, ScriptToken.ofChars? (' ' :: rest) = ScriptToken.ofChars? rest :=
    ScriptToken.ofChars?_blank (by decide)
  rw [hchars, hspace, hspace, hspace, hspace, ScriptToken.ofChars?_quote, hspace,
    ScriptToken.ofChars?_mark (by decide), hspace, EnvValue.ofChars?_scriptText,
    ScriptToken.ofChars?_mark (by decide), ScriptToken.ofChars?_blank (by decide)]
  simp only [Option.map_map]
  rfl

theorem ofChars?_entryLines (es : List (String × EnvValue)) (rest : List Char) :
    ScriptToken.ofChars? (es.flatMap (fun e => (entryLine e).toList ++ ['\n']) ++ rest)
      = (ScriptToken.ofChars? rest).map (es.flatMap entryTokens ++ ·) := by
  induction es with
  | nil => simp
  | cons e es ih =>
    rw [List.flatMap_cons, List.append_assoc, List.append_assoc, List.singleton_append,
      ofChars?_entryLine, ih, Option.map_map]
    simp [Function.comp_def]

/-- The settings are read back from their tokens. -/
theorem ofEntries?_entryTokens (es : List (String × EnvValue)) :
    ofEntries? (es.flatMap entryTokens ++ [.mark '\x7d']) = some es := by
  induction es with
  | nil => rfl
  | cons e es ih =>
    have htokens : (e :: es).flatMap entryTokens ++ [ScriptToken.mark '\x7d']
        = .string e.1 :: .mark ':' :: e.2.token :: .mark ',' ::
          (es.flatMap entryTokens ++ [.mark '\x7d']) := by
      simp [entryTokens]
    rw [htokens, ofEntries?, EnvValue.ofToken?_token, ih]
    rfl

/-- **The settings are read back from the rendering.** -/
theorem ofDictionary?_text (env : BuildEnv) :
    ofDictionary? (buildEnvText env) = some env.settings.entries := by
  have hchars : (buildEnvText env).toList
      = "build_env".toList ++ ' ' :: '=' :: ' ' :: '\x7b' :: '\n' ::
        (env.settings.entries.flatMap (fun e => (entryLine e).toList ++ ['\n'])
          ++ '\x7d' :: ['\n']) := by
    rw [buildEnvText, toList_unlines, List.flatMap_append, List.flatMap_append, List.flatMap_map]
    simp [entryLine]
  rw [ofDictionary?, hchars, ScriptToken.ofChars?_word (by decide) (by decide) (by decide),
    ScriptToken.ofChars?_blank (by decide), ScriptToken.ofChars?_mark (by decide),
    ScriptToken.ofChars?_blank (by decide), ScriptToken.ofChars?_mark (by decide),
    ScriptToken.ofChars?_blank (by decide), ofChars?_entryLines,
    ScriptToken.ofChars?_mark (by decide), ScriptToken.ofChars?_blank (by decide),
    ScriptToken.ofChars?_nil]
  simp only [Option.map_some, Option.bind_some]
  exact ofEntries?_entryTokens env.settings.entries

/-- Different environments have different renderings. -/
theorem eq_of_text_eq (h : buildEnvText env = buildEnvText env') : env = env' := by
  have hread := ofDictionary?_text env
  rw [h, ofDictionary?_text, Option.some.injEq] at hread
  cases env
  cases env'
  exact congrArg BuildEnv.mk (NameMap.ext hread.symm)

/-- The last accepted call for a key counts. -/
theorem get?_afterCalls (calls : List (String × EnvValue)) (key : String) :
    (afterCalls empty calls).get? key
      = ((calls.filter accepts).reverse.find? (·.1 = key)).map Prod.snd := by
  rw [get?, settings_afterCalls]
  exact NameMap.get?_ofList _ _

/-- **The build environment and its rendering.** A call is accepted exactly if its key is an
identifier, and otherwise names this key and changes nothing; it answers as `insert?` does, and
leaves behind what `insert?` gives. So after some calls a key has the value of the last accepted call
for it. The keys of what calls leave behind, and of what tables describe, are identifiers. The
rendering of an environment is read back as a dictionary with the same keys and the same values of
the same kinds, in the order of the keys; so no two environments have one rendering. -/
theorem rendering_roundTrip :
    (∀ (env after : BuildEnv) (key : String) (value : EnvValue) (answer : Except Failure Unit),
        (insertCall key value).run.run env = (answer, after) →
          env.insert? key value = answer.map (fun _ => after)
            ∧ (answer = .ok () ↔ isIdentifier key.toList = true)
            ∧ (answer ≠ .ok () →
              answer = .error (.malformedEnv (.keyNotIdentifier key)) ∧ after = env))
      ∧ (∀ (calls : List (String × EnvValue)) (key : String),
        (afterCalls empty calls).get? key
          = ((calls.filter accepts).reverse.find? (·.1 = key)).map Prod.snd)
      ∧ (∀ env, Built env → ∀ key ∈ env.settings.keys, isIdentifier key.toList = true)
      ∧ (∀ env : BuildEnv, ofDictionary? (buildEnvText env) = some env.settings.entries
        ∧ (env.settings.entries.map Prod.fst).Pairwise (· < ·))
      ∧ ∀ env env' : BuildEnv, buildEnvText env = buildEnvText env' → env = env' := by
  refine ⟨fun env after key value answer h => ?_, get?_afterCalls,
    fun _ hbuilt _ => hbuilt.isIdentifier_of_mem,
    fun env => ⟨ofDictionary?_text env, env.settings.ordered⟩, fun _ _ => eq_of_text_eq⟩
  cases hkey : isIdentifier key.toList with
  | true =>
    rw [insertCall_of_isIdentifier hkey, Prod.mk.injEq] at h
    obtain ⟨rfl, rfl⟩ := h
    refine ⟨?_, by simp, fun hne => absurd rfl hne⟩
    rw [insert?, if_pos hkey]
    rfl
  | false =>
    rw [insertCall_of_not_isIdentifier hkey, Prod.mk.injEq] at h
    obtain ⟨rfl, rfl⟩ := h
    refine ⟨?_, by simp, fun _ => ⟨rfl, rfl⟩⟩
    rw [insert?, if_neg (by simp [hkey])]
    rfl

/-- Settings whose texts look like a number, a truth value and the end of the dictionary, and a call
that is refused. -/
def trickyCalls : List (String × EnvValue) :=
  [("ISA", .str "\",\n\x7d"), ("N", .int (-9223372036854775808)), ("9", .int 9),
    ("CPU", .str "True"), ("ISA", .str "4\\")]

/-- The settings are read back, and the refused call is not among them. -/
theorem rendering_trickyCalls :
    ofDictionary? (buildEnvText (afterCalls empty trickyCalls))
        = some (afterCalls empty trickyCalls).settings.entries
      ∧ (insertCall "9" (.int 9)).run.run empty
        = (.error (.malformedEnv (.keyNotIdentifier "9")), empty)
      ∧ (afterCalls empty trickyCalls).get? "ISA" = some (.str "4\\")
      ∧ (∀ key ∈ (afterCalls empty trickyCalls).settings.keys, isIdentifier key.toList = true)
      ∧ ∃ env, ofTable? [("FULL_SYSTEM", .boolean true)] = .ok env
        ∧ ∀ key ∈ env.settings.keys, isIdentifier key.toList = true := by
  obtain ⟨hcall, hget, hkeys, hread, -⟩ := rendering_roundTrip
  have htable : ofTable? [("FULL_SYSTEM", .boolean true)]
      = .ok (afterCalls empty [("FULL_SYSTEM", .bool true)]) := rfl
  refine ⟨(hread _).1, ?_, ?_, hkeys _ (.calls _), _, htable, hkeys _ (.table htable)⟩
  · obtain ⟨⟨answer, after⟩, hrun⟩ : ∃ p, (insertCall "9" (.int 9)).run.run empty = p := ⟨_, rfl⟩
    obtain ⟨-, haccepted, hrefused⟩ := hcall _ _ _ _ _ hrun
    obtain ⟨rfl, rfl⟩ := hrefused fun hok => absurd (haccepted.mp hok) (by decide)
    exact hrun
  · rw [hget]
    decide

end BuildEnv

end SimMetadata

/-
  File:      Retro24/Proofs/Session/Bindings.lean
  Subject:   Settings files that lack some of the bindings.

  * `Key.label`, `KeyBindings.bound`, `KeyBindings.rebind`: the bindings by their keys, each one apart
    from the others (`bound_rebind_self`, `bound_rebind_of_ne`).
  * `KeyBindings.entriesWithout`, `Settings.textWithout`: what is written, less a set of the bindings.
  * `KeyBindings.readStruct_without`: bindings are refused where one is missing.
  * `Settings.bindings_all_or_none`: what becomes of the settings in such a file, and
    `Settings.not_restored`: they are not merged with the standard ones.
-/
import Retro24.Proofs.Session.Settings

namespace Retro24

open Json (FieldReader Fills Value)

/-! ## 1. Bindings by their keys -/

/-- The name of a key in settings files. -/
def Key.label : Key → String
  | up => "up"
  | down => "down"
  | left => "left"
  | right => "right"
  | action => "action"

theorem Key.label_inj {b c : Key} : b.label = c.label ↔ b = c := by
  refine ⟨fun same => ?_, congrArg label⟩
  cases b <;> cases c <;> first | rfl | simp [label] at same

theorem Key.mem_all (b : Key) : b ∈ Key.all := by cases b <;> decide

theorem Key.nodup_labels : (Key.all.map Key.label).Nodup := by decide

namespace KeyBindings

/-- The host key bound to a key. -/
def bound (k : KeyBindings) : Key → String
  | .up => k.up
  | .down => k.down
  | .left => k.left
  | .right => k.right
  | .action => k.action

/-- The bindings with another host key for one of the keys. -/
def rebind (k : KeyBindings) (b : Key) (s : String) : KeyBindings :=
  match b with
  | .up => { k with up := s }
  | .down => { k with down := s }
  | .left => { k with left := s }
  | .right => { k with right := s }
  | .action => { k with action := s }

@[simp] theorem bound_rebind_self (k : KeyBindings) (b : Key) (s : String) :
    (k.rebind b s).bound b = s := by
  cases b <;> rfl

theorem bound_rebind_of_ne (k : KeyBindings) {b c : Key} (other : b ≠ c) (s : String) :
    (k.rebind b s).bound c = k.bound c := by
  cases b <;> cases c <;> first | rfl | exact absurd rfl other

theorem ext_bound {k l : KeyBindings} (same : ∀ b, k.bound b = l.bound b) : k = l := by
  obtain ⟨up, down, left, right, action⟩ := k
  obtain ⟨up', down', left', right', action'⟩ := l
  simp only [mk.injEq]
  exact ⟨same .up, same .down, same .left, same .right, same .action⟩

/-- The field of a key. -/
def field (b : Key) : FieldReader KeyBindings :=
  ⟨b.label, fun cs k => (Json.readText "a string" cs).map fun (s, rest) => (k.rebind b s, rest)⟩

theorem fields_eq : fields = Key.all.map field := rfl

theorem find?_label (b : Key) : fields.find? (fun f => f.name == b.label) = some (field b) := by
  cases b <;> rfl

/-- The bindings with the standard ones for some of the keys. -/
def restored (k : KeyBindings) (removed : Key → Bool) : KeyBindings :=
  let pick (b : Key) : String := if removed b then standard.bound b else k.bound b
  ⟨pick .up, pick .down, pick .left, pick .right, pick .action⟩

/-! ## 2. Texts without some bindings -/

/-- The entries of bindings without those that are removed. -/
def entriesWithout (k : KeyBindings) (removed : Key → Bool) : List (String × Value) :=
  (Key.all.filter fun b => !removed b).map fun b => (b.label, .string (k.bound b))

/-- The entries of any keys fill their fields. -/
theorem fills_keys (k draft : KeyBindings) (indent : Nat) (keys : List Key) :
    Fills fields indent draft (keys.map fun b => (b.label, .string (k.bound b)))
      (keys.foldl (fun draft b => draft.rebind b (k.bound b)) draft) := by
  induction keys generalizing draft with
  | nil => exact .nil draft
  | cons b keys ih =>
    have text (rest : List Char) : Json.readText "a string"
        (' ' :: (Json.writePretty indent (.string (k.bound b)) ++ rest)) = .ok (k.bound b, rest) := by
      rw [Json.writePretty]
      exact Json.readText_written _ (k.bound b)
    exact .cons (find?_label b) (fun rest _ => Json.map_written (text rest) (draft.rebind b ·))
      (ih (draft.rebind b (k.bound b)))

theorem map_fst_entriesWithout (k : KeyBindings) (removed : Key → Bool) :
    (k.entriesWithout removed).map Prod.fst =
      (Key.all.filter fun b => !removed b).map Key.label := by
  rw [entriesWithout, List.map_map]
  rfl

theorem label_mem_entriesWithout (k : KeyBindings) (removed : Key → Bool) (b : Key) :
    b.label ∈ (k.entriesWithout removed).map Prod.fst ↔ removed b = false := by
  rw [map_fst_entriesWithout, List.mem_map]
  constructor
  · rintro ⟨c, inside, same⟩
    rw [← Key.label_inj.mp same]
    simpa using (List.mem_filter.mp inside).2
  · intro kept
    refine ⟨b, List.mem_filter.mpr ⟨Key.mem_all b, ?_⟩, rfl⟩
    rw [kept]
    rfl

/-- The first field that is missing is that of the first key that was removed. -/
theorem find?_removed (k : KeyBindings) {removed : Key → Bool} {b : Key}
    (first : Key.all.find? removed = some b) :
    fields.find? (fun f => !((k.entriesWithout removed).map Prod.fst).contains f.name) =
      some (field b) := by
  have missing : (fun c => !((k.entriesWithout removed).map Prod.fst).contains (field c).name) =
      removed := by
    funext c
    have kept : (field c).name ∈ (k.entriesWithout removed).map Prod.fst ↔ removed c = false :=
      k.label_mem_entriesWithout removed c
    rw [List.contains_eq_mem]
    simp only [kept, Bool.decide_eq_false, Bool.not_not]
  rw [fields_eq, List.find?_map]
  exact congrArg (Option.map field) ((congrArg (Key.all.find? ·) missing).trans first)

/-- **Bindings are refused where one is missing.** -/
theorem readStruct_without (k draft : KeyBindings) {removed : Key → Bool} {b : Key}
    (first : Key.all.find? removed = some b) {limit : Nat} (room : 5 < limit) (indent : Nat)
    (rest : List Char) :
    Json.readStruct limit "struct KeyMapping" true fields draft
        (' ' :: (Json.writePretty indent (.object (k.entriesWithout removed)) ++ rest)) =
      .error (Json.mismatchAt (.missingField b.label) rest) := by
  have fills := k.fills_keys draft (indent + 1) (Key.all.filter fun b => !removed b)
  have few : (k.entriesWithout removed).length < limit := by
    rw [entriesWithout, List.length_map]
    exact Nat.lt_of_le_of_lt (List.length_filter_le _ _) room
  have distinct : ((k.entriesWithout removed).map Prod.fst).Nodup := by
    rw [map_fst_entriesWithout]
    exact Key.nodup_labels.sublist (List.filter_sublist.map Key.label)
  rw [Json.readStruct_space]
  exact Json.readStruct_missing _ fills distinct (k.find?_removed first) few

end KeyBindings

/-! ## 3. Settings without some bindings -/

namespace Settings

/-- Settings as an object, without the bindings of some of the keys. -/
def jsonWithout (s : Settings) (removed : Key → Bool) : Value :=
  .object (s.frontEntries ++ [("keyboard", .object (s.keyboard.entriesWithout removed))])

/-- The text of settings without the bindings of some of the keys. -/
def textWithout (s : Settings) (removed : Key → Bool) : String := (s.jsonWithout removed).pretty

theorem textWithout_none (s : Settings) : s.textWithout (fun _ => false) = s.text := rfl

/-- **The text of settings that lack a binding is refused.** -/
theorem parse_textWithout (s : Settings) {removed : Key → Bool} {b : Key}
    (first : Key.all.find? removed = some b) : ∃ position,
    parse (s.textWithout removed) = .error ⟨.mismatch (.missingField b.label), position⟩ := by
  have text : (s.textWithout removed).toList = Json.writePretty 0 (s.jsonWithout removed) :=
    String.toList_ofList
  have room : 5 < (s.textWithout removed).length := by
    rw [← String.length_toList, text]
    exact s.roomy _
  have few : s.frontEntries.length < (s.textWithout removed).length :=
    Nat.lt_trans (show 3 < 5 by decide) room
  have distinct : ("keyboard" :: s.frontEntries.map Prod.fst).Nodup := by
    show ["keyboard", "clock_speed", "cycles_per_frame", "scale"].Nodup
    decide
  have refused := s.keyboard.readStruct_without .standard first room 1
    (Json.entriesText 0 false [] ++ [])
  have read : Json.readStruct (s.textWithout removed).length "struct Settings" false
      (fields (s.textWithout removed).length) standard
      (Json.writePretty 0 (s.jsonWithout removed) ++ []) = .error _ :=
    Json.readStruct_refused _ false (s.fills_front standard _ 1) distinct rfl
      (congrArg (Except.map _) refused) few
  rw [List.append_nil] at read
  simp only [parse, Json.readAll, text, read]
  exact ⟨_, rfl⟩

/-- **Bindings stand in a file all or not at all.** Where all of them are there, the settings are those
    that were written. Where some are not, everything else in the file is lost with them: the settings
    are the standard ones, and what is reported is the first binding that is missing. -/
theorem bindings_all_or_none (s : Settings) (removed : Key → Bool) (path : String) :
    (Key.all.find? removed = none → ofFile path (.ok (s.textWithout removed)) = (s, [])) ∧
    ∀ b, Key.all.find? removed = some b → ∃ position,
      ofFile path (.ok (s.textWithout removed)) =
        (standard, [.settingsIgnored path ⟨.mismatch (.missingField b.label), position⟩]) := by
  refine ⟨fun none => ?_, fun b first => ?_⟩
  · have kept : removed = fun _ => false := by
      funext b
      exact Bool.eq_false_iff.mpr (List.find?_eq_none.mp none b (Key.mem_all b))
    rw [kept, textWithout_none, ofFile, parse_text]
  · obtain ⟨position, refused⟩ := s.parse_textWithout first
    refine ⟨position, ?_⟩
    rw [ofFile, refused]

/-- Settings that are none of the standard ones. -/
def rebound : Settings := ⟨.slow, 500, 2, ⟨"W", "S", "A", "D", "Z"⟩⟩

/-- With all bindings they are read, and without the one of the action key they are not. -/
theorem bindings_all_or_none_rebound :
    ofFile "settings.json" (.ok (rebound.textWithout fun _ => false)) = (rebound, []) ∧
    ∃ position, ofFile "settings.json" (.ok (rebound.textWithout (· == .action))) =
      (standard, [.settingsIgnored "settings.json" ⟨.mismatch (.missingField "action"), position⟩]) :=
  ⟨(bindings_all_or_none rebound (fun _ => false) "settings.json").1 rfl,
    (bindings_all_or_none rebound (· == .action) "settings.json").2 .action rfl⟩

/-- **Missing bindings are not those of the standard settings beside the rest of the file.** -/
theorem not_restored :
    ¬∀ (s : Settings) (removed : Key → Bool) (path : String),
      (ofFile path (.ok (s.textWithout removed))).1 =
        { s with keyboard := s.keyboard.restored removed } := by
  intro restored
  have same := restored rebound (· == .action) "settings.json"
  have first : Key.all.find? (· == .action) = some .action := rfl
  obtain ⟨position, refused⟩ := rebound.parse_textWithout first
  rw [ofFile, refused] at same
  have scales : (4 : UInt8) = 2 := congrArg Settings.scale same
  exact absurd scales (by decide)

end Settings

end Retro24

/-
  File:      Retro24/Proofs/Session/Settings.lean
  Subject:   Settings that were written are read again.

  * `textOf_toUTF8`, `FileTree.read_write`: the bytes of a text hold that text, and a file that was
    written holds its bytes.
  * `KeyBindings.fills`, `Settings.fills`: the entries that are written fill the fields that are
    read; `Settings.parse_text`: so the text of settings is read as those settings.
  * `Step.on`: a step of a session with files in memory. `on_settings` says what a session does about
    its settings: where they start from, what the command line changes, where they are written.
  * `settings_survive`: all of it together, from one session to the next.
-/
import Retro24.Proofs.Json.Records
import Retro24.Session

namespace Retro24

open Json (Fills Value Ends)

/-! ## 1. Files -/

/-- The bytes of a text hold that text. -/
theorem textOf_toUTF8 (s : String) : textOf s.toUTF8 = .ok s := by
  simp only [textOf, String.fromUTF8?, String.toUTF8_eq_toByteArray, s.isValidUTF8, dite_true]
  rfl

namespace FileTree

variable {t t' : FileTree} {names here there : List String} {bytes : ByteArray} {path : String}

theorem node?_put_self (filled : names ≠ []) (node : FileNode) :
    (t.put names node).node? names = some node := by
  unfold node? put
  rw [if_neg filled, List.lookup_cons_self]

theorem node?_put_of_ne (other : here ≠ names) (node : FileNode) :
    (t.put names node).node? here = t.node? here := by
  unfold node? put
  rw [List.lookup_cons, beq_eq_false_iff_ne.mpr other]

/-- A node that is put where no directory was stands in nobody's way. -/
theorem follow_put (free : t.node? names ≠ some .directory) (node : FileNode) {parts : List String}
    (found : t.follow here parts = .ok there) : (t.put names node).follow here parts = .ok there := by
  induction parts generalizing here with
  | nil => exact found
  | cons part parts ih =>
    unfold follow at found ⊢
    by_cases stays : part = "" ∨ part = "."
    · rw [if_pos stays] at found ⊢
      exact ih found
    · rw [if_neg stays] at found ⊢
      by_cases up : part = ".."
      · rw [if_pos up] at found ⊢
        cases here with
        | nil => cases found
        | cons inner outer => exact ih found
      · rw [if_neg up] at found ⊢
        cases step : t.node? (part :: here) with
        | none =>
          rw [step] at found
          cases found
        | some met =>
          rw [step] at found
          cases met with
          | file b => cases found
          | directory =>
            have other : part :: here ≠ names := by
              rintro rfl
              exact free step
            rw [node?_put_of_ne other, step]
            exact ih found

theorem locate_put (free : t.node? names ≠ some .directory) (node : FileNode)
    (found : t.locate path = .ok there) : (t.put names node).locate path = .ok there := by
  unfold locate at found ⊢
  split at found
  · cases found
  · next relative =>
    rw [if_neg relative]
    dsimp only at found ⊢
    split at found
    · next special =>
      rw [if_pos special]
      exact follow_put free node found
    · next plain =>
      rw [if_neg plain]
      cases outer : t.follow [] (path.splitOn "/").dropLast with
      | error e =>
        rw [outer] at found
        cases found
      | ok here =>
        rw [outer] at found
        rw [follow_put free node outer]
        exact found

/-- **A file that was written holds its bytes.** -/
theorem read_write (wrote : t.write path bytes = .ok t') : t'.read path = .ok bytes := by
  unfold write locateNew at wrote
  by_cases slash : path.endsWith "/" = true
  · rw [if_pos slash] at wrote
    split at wrote
    · cases wrote
    · next e =>
      split at e <;> cases e
  · rw [if_neg slash] at wrote
    cases located : t.locate path with
    | error e =>
      rw [located] at wrote
      cases wrote
    | ok names =>
      rw [located] at wrote
      have free : t.node? names ≠ some .directory := by
        intro directory
        simp only [directory] at wrote
        cases wrote
      have filled : names ≠ [] := by
        rintro rfl
        exact free rfl
      have put : t' = t.put names (.file bytes) := by
        dsimp only at wrote
        split at wrote
        · cases wrote
        · exact (Except.ok.inj wrote).symm
      rw [put, read, locate_put free _ located]
      simp only [node?_put_self filled]

theorem store_write_ok (wrote : t.write path bytes = .ok t') :
    (store.write path bytes).run t = (.ok (), t') := by
  simp only [store, StateT.run, wrote]

theorem store_write_error {e : FileError} (failed : t.write path bytes = .error e) :
    (store.write path bytes).run t = (.error e, t) := by
  simp only [store, StateT.run, failed]

end FileTree

/-! ## 2. The text of settings -/

namespace KeyBindings

/-- The entries of bindings fill all fields, whatever the draft is. -/
theorem fills (k draft : KeyBindings) (indent : Nat) :
    Fills fields indent draft
      [("up", .string k.up), ("down", .string k.down), ("left", .string k.left),
       ("right", .string k.right), ("action", .string k.action)] k := by
  have text (s : String) (rest : List Char) : Json.readText "a string"
      (' ' :: (Json.writePretty indent (.string s) ++ rest)) = .ok (s, rest) := by
    rw [Json.writePretty]
    exact Json.readText_written _ s
  refine .cons rfl (fun rest _ => Json.map_written (text k.up rest) ({ draft with up := · })) ?_
  refine .cons rfl (fun rest _ => Json.map_written (text k.down rest)
    (KeyBindings.mk k.up · draft.left draft.right draft.action)) ?_
  refine .cons rfl (fun rest _ => Json.map_written (text k.left rest)
    (KeyBindings.mk k.up k.down · draft.right draft.action)) ?_
  refine .cons rfl (fun rest _ => Json.map_written (text k.right rest)
    (KeyBindings.mk k.up k.down k.left · draft.action)) ?_
  exact .cons rfl (fun rest _ => Json.map_written (text k.action rest)
    (KeyBindings.mk k.up k.down k.left k.right)) (.nil _)

/-- **Bindings are read back.** -/
theorem readStruct_toJson (k draft : KeyBindings) {limit : Nat} (room : 5 < limit) (indent : Nat)
    (rest : List Char) :
    Json.readStruct limit "struct KeyMapping" true fields draft
      (' ' :: (Json.writePretty indent k.toJson ++ rest)) = .ok (k, rest) := by
  have distinct : (fields.map Json.FieldReader.name).Nodup := by decide
  rw [Json.readStruct_space]
  refine Json.readStruct_written _ (k.fills draft (indent + 1)) distinct ?_ room
  intro _ f inside
  exact List.mem_map_of_mem inside

end KeyBindings

namespace Settings

/-- The entries of settings in front of their bindings. -/
def frontEntries (s : Settings) : List (String × Value) :=
  [("clock_speed", .string s.clockRate.name), ("cycles_per_frame", .ofNat s.batchLength.toNat),
   ("scale", .ofNat s.scale.toNat)]

/-- They fill all fields but the bindings. -/
theorem fills_front (s draft : Settings) (limit indent : Nat) :
    Fills (fields limit) indent draft s.frontEntries { s with keyboard := draft.keyboard } := by
  have rate (rest : List Char) : Json.readName ClockRate.names
      (' ' :: (Json.writePretty indent (.string s.clockRate.name) ++ rest)) =
        .ok (s.clockRate, rest) := by
    rw [Json.writePretty, Json.readName_written]
    cases s.clockRate <;> rfl
  have batch {rest : List Char} (ends : Ends rest) : Json.readNat 0x100000000 "u32"
      (' ' :: (Json.writePretty indent (.ofNat s.batchLength.toNat) ++ rest)) =
        .ok (s.batchLength.toNat, rest) :=
    Json.readNat_written "u32" indent ends s.batchLength.toNat_lt (by decide)
  have scale {rest : List Char} (ends : Ends rest) : Json.readNat 0x100 "u8"
      (' ' :: (Json.writePretty indent (.ofNat s.scale.toNat) ++ rest)) =
        .ok (s.scale.toNat, rest) :=
    Json.readNat_written "u8" indent ends s.scale.toNat_lt (by decide)
  have last : (⟨s.clockRate, UInt32.ofNat s.batchLength.toNat, UInt8.ofNat s.scale.toNat,
      draft.keyboard⟩ : Settings) = { s with keyboard := draft.keyboard } := by
    rw [UInt32.ofNat_toNat, UInt8.ofNat_toNat]
  refine .cons rfl (fun rest _ => Json.map_written (rate rest) ({ draft with clockRate := · })) ?_
  refine .cons rfl (fun rest ends => Json.map_written (batch ends)
    fun n => Settings.mk s.clockRate (UInt32.ofNat n) draft.scale draft.keyboard) ?_
  refine .cons rfl (fun rest ends => Json.map_written (scale ends)
    fun n => Settings.mk s.clockRate _ (UInt8.ofNat n) draft.keyboard) ?_
  rw [last]
  exact .nil _

/-- The entries of settings fill all fields, whatever the draft is. -/
theorem fills (s draft : Settings) {limit : Nat} (room : 5 < limit) (indent : Nat) :
    Fills (fields limit) indent draft (s.frontEntries ++ [("keyboard", s.keyboard.toJson)]) s := by
  have keyboard (rest : List Char) := s.keyboard.readStruct_toJson .standard room indent rest
  refine (s.fills_front draft limit indent).append ?_
  exact .cons rfl (fun rest _ => Json.map_written (keyboard rest)
    (Settings.mk s.clockRate s.batchLength s.scale)) (.nil _)

/-- The text of settings is longer than the number of their bindings. -/
theorem roomy (s : Settings) (keyboard : Value) :
    5 < (Json.writePretty 0 (.object (s.frontEntries ++ [("keyboard", keyboard)]))).length := by
  have key : (Json.writeString "clock_speed").length = 13 := by decide
  simp only [frontEntries, List.cons_append, Json.writePretty, List.length_cons,
    List.length_append, key]
  omega

/-- **The text of settings is read as those settings.** -/
theorem parse_text (s : Settings) : parse s.text = .ok s := by
  have text : s.text.toList = Json.writePretty 0 s.toJson := String.toList_ofList
  have room : 5 < s.text.length := by
    rw [← String.length_toList, text]
    exact s.roomy s.keyboard.toJson
  have distinct : ["clock_speed", "cycles_per_frame", "scale", "keyboard"].Nodup := by decide
  have read : Json.readStruct s.text.length "struct Settings" false (fields s.text.length) standard
      (Json.writePretty 0 s.toJson ++ []) = .ok (s, []) :=
    Json.readStruct_written _ (s.fills standard room 1) distinct
      (fun needed => absurd needed Bool.false_ne_true) (Nat.lt_of_succ_lt room)
  rw [List.append_nil] at read
  simp only [parse, Json.readAll, text, read]
  rfl

end Settings

/-! ## 3. Steps with files in memory -/

namespace Session

variable {α β : Type} {o o' : Output} {t t' : FileTree}

/-- A step with files in memory: what came of it, its output, and the files behind it. -/
def Step.on (x : Step (StateM FileTree) α) (o : Output) (t : FileTree) :
    (Except Setback α × Output) × FileTree :=
  (x.run.run o).run t

theorem on_bind_ok {x : Step (StateM FileTree) α} {a : α} (next : α → Step (StateM FileTree) β)
    (done : x.on o t = ((.ok a, o'), t')) : (x >>= next).on o t = (next a).on o' t' := by
  unfold Step.on at done ⊢
  rw [ExceptT.run_bind, StateT.run_bind, StateT.run_bind, done]
  rfl

theorem on_bind_error {x : Step (StateM FileTree) α} {e : Setback}
    (next : α → Step (StateM FileTree) β) (failed : x.on o t = ((.error e, o'), t')) :
    (x >>= next).on o t = ((.error e, o'), t') := by
  unfold Step.on at failed ⊢
  rw [ExceptT.run_bind, StateT.run_bind, StateT.run_bind, failed]
  rfl

theorem on_onFiles (action : StateM FileTree α) (o : Output) (t : FileTree) :
    (onFiles action).on o t = ((.ok (action.run t).1, o), (action.run t).2) := rfl

/-! ## 4. Settings in force -/

variable {a : Arguments} {s : Settings} {path : String}

/-- The settings that a session finds, and what there is to report of them. -/
def found (a : Arguments) (t : FileTree) : Settings × List Entry :=
  match a.config with
  | none => (.standard, [])
  | some path => Settings.ofFile path ((t.read path).bind textOf)

/-- The output with entries in its journal. -/
def reported (o : Output) (entries : List Entry) : Output :=
  { o with console := { o.console with journal := o.console.journal.noteAll entries } }

theorem on_startSettings (a : Arguments) (o : Output) (t : FileTree) :
    (startSettings FileTree.store a).on o t = ((.ok (found a t).1, reported o (found a t).2), t) := by
  unfold startSettings found
  cases a.config <;> rfl

/-- **What comes of the settings**: they are found, changed by the command line, and written where
    that is asked for. -/
theorem on_settings (a : Arguments) (o : Output) (t : FileTree) :
    (settings FileTree.store a).on o t =
      match a.apply (found a t).1 with
      | .error name =>
        ((.error ⟨"Unknown clock speed: " ++ name, []⟩, reported o (found a t).2), t)
      | .ok s =>
        match a.configOut with
        | none => ((.ok s, reported o (found a t).2), t)
        | some path =>
          match t.write path s.text.toUTF8 with
          | .error e =>
            ((.error ⟨"failed to write " ++ path ++ ": " ++ e.message, []⟩,
              reported o (found a t).2), t)
          | .ok t' => ((.ok s, reported o (found a t).2), t') := by
  unfold settings
  rw [on_bind_ok _ (on_startSettings a o t)]
  cases a.apply (found a t).1 with
  | error name => rfl
  | ok s =>
    cases a.configOut with
    | none => rfl
    | some path =>
      have step := on_onFiles (FileTree.store.write path s.text.toUTF8)
        (reported o (found a t).2) t
      dsimp only
      unfold forGiven
      cases wrote : t.write path s.text.toUTF8 with
      | error e =>
        rw [FileTree.store_write_error wrote] at step
        refine on_bind_error _ ?_
        rw [on_bind_ok _ step]
        rfl
      | ok t' =>
        rw [FileTree.store_write_ok wrote] at step
        refine (on_bind_ok (a := ()) _ ?_).trans rfl
        rw [on_bind_ok _ step]
        rfl

theorem on_settings_written (o : Output) (applied : a.apply (found a t).1 = .ok s)
    (out : a.configOut = some path) (wrote : t.write path s.text.toUTF8 = .ok t') :
    (settings FileTree.store a).on o t = ((.ok s, reported o (found a t).2), t') := by
  rw [on_settings, applied, out]
  dsimp only
  rw [wrote]

/-- Settings that came of a session, and the file that holds them if they were to be written. -/
theorem apply_of_settings (done : (settings FileTree.store a).on o t = ((.ok s, o'), t')) :
    a.apply (found a t).1 = .ok s ∧
      ∀ path, a.configOut = some path → t.write path s.text.toUTF8 = .ok t' := by
  rw [on_settings] at done
  cases applied : a.apply (found a t).1 with
  | error name =>
    rw [applied] at done
    cases done
  | ok s' =>
    rw [applied] at done
    cases out : a.configOut with
    | none =>
      rw [out] at done
      cases done
      exact ⟨rfl, nofun⟩
    | some path =>
      rw [out] at done
      dsimp only at done
      split at done
      · cases done
      · next wrote =>
        cases done
        refine ⟨rfl, ?_⟩
        rintro _ ⟨⟩
        exact wrote

/-- A command line that takes its settings from a file as they are. -/
structure Adopts (a : Arguments) (path : String) : Prop where
  config : a.config = some path
  speed : a.speed = none
  batchLength : a.batchLength = none
  scale : a.scale = none

theorem Adopts.apply (h : Adopts a path) (s : Settings) : a.apply s = .ok s := by
  unfold Arguments.apply
  rw [h.speed, h.batchLength, h.scale]
  rfl

/-- **Settings survive.** A file that settings were written to is read as these settings, without
    anything to report. So where a session writes its settings, whatever they were found to be and
    however its command line changed them, another session that takes its settings from this file, or
    from one with the same bytes, has the same settings. -/
theorem settings_survive :
    (∀ (s : Settings) (t t' : FileTree) (path : String), t.write path s.text.toUTF8 = .ok t' →
      Settings.ofFile path ((t'.read path).bind textOf) = (s, [])) ∧
    ∀ (a : Arguments) (o o' : Output) (t t' : FileTree) (s : Settings) (path : String),
      a.configOut = some path → (settings FileTree.store a).on o t = ((.ok s, o'), t') →
      ∀ (b : Arguments) (p : Output) (u : FileTree) (copy : String),
        Adopts b copy → u.read copy = t'.read path →
        (b.configOut = none → (settings FileTree.store b).on p u = ((.ok s, p), u)) ∧
        ∀ s' p' u', (settings FileTree.store b).on p u = ((.ok s', p'), u') → s' = s := by
  have loaded (s : Settings) (path : String) :
      Settings.ofFile path ((Except.ok s.text.toUTF8).bind textOf) = (s, []) := by
    simp only [Except.bind, textOf_toUTF8, Settings.ofFile, s.parse_text]
  refine ⟨?_, ?_⟩
  · intro s t t' path wrote
    rw [FileTree.read_write wrote, loaded]
  · intro a o o' t t' s path out done b p u copy adopts same
    obtain ⟨-, written⟩ := apply_of_settings done
    have start : found b u = (s, []) := by
      rw [found, adopts.config]
      dsimp only
      rw [same, FileTree.read_write (written path out), loaded]
    have force : b.apply (found b u).1 = .ok s := by
      rw [start, adopts.apply]
    refine ⟨?_, ?_⟩
    · intro quiet
      rw [on_settings, force, quiet, start]
      rfl
    · intro s' p' u' done'
      have same := (apply_of_settings done').1
      rw [force] at same
      exact (Except.ok.inj same).symm

/-- A command line that changes the standard settings and has them written. -/
def keeping : Arguments :=
  { Arguments.none with
    configOut := some "s", speed := some "SLOW", batchLength := some 500, scale := some 0 }

/-- What it writes into an empty directory comes back in the next session. -/
theorem settings_survive_keeping :
    ∃ (s : Settings) (o : Output) (t' : FileTree), s = ⟨.slow, 500, 0, .standard⟩ ∧
      (settings FileTree.store keeping).on o .empty = ((.ok s, o), t') ∧
      (settings FileTree.store { Arguments.none with config := some "s" }).on o t' =
        ((.ok s, o), t') := by
  -- the string operations of the path recurse on well-founded measures, so that it is split by hand
  have parts : "s".splitOn "/" = ["s"] := by
    show String.splitOnAux "s" "/" 0 0 0 [] = _
    rw [String.splitOnAux.eq_1, if_neg (by decide +kernel), if_neg (by decide +kernel),
      String.splitOnAux.eq_1, if_pos (by decide +kernel)]
    decide +kernel
  have wrote (bytes : ByteArray) : FileTree.empty.write "s" bytes =
      .ok (FileTree.empty.put ["s"] (.file bytes)) := by
    have relative : ¬("s" = "" ∨ "s".startsWith "/" = true) := by decide +kernel
    have file : ¬"s".endsWith "/" = true := by decide +kernel
    rw [FileTree.write, FileTree.locateNew, if_neg file, FileTree.locate, if_neg relative, parts]
    rfl
  have applied : keeping.apply (found keeping FileTree.empty).1 = .ok ⟨.slow, 500, 0, .standard⟩ := by
    rfl
  generalize (⟨.slow, 500, 0, .standard⟩ : Settings) = s at applied ⊢
  have done := on_settings_written ⟨"", ⟨.powerOn, .blank none⟩⟩ applied rfl (wrote _)
  refine ⟨s, _, _, rfl, done, ?_⟩
  have survive := settings_survive.2 keeping _ _ _ _ _ _ rfl done
    { Arguments.none with config := some "s" }
  exact (survive _ _ _ ⟨rfl, rfl, rfl, rfl⟩ rfl).1 rfl

end Session

end Retro24

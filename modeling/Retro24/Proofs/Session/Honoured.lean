/-
  File:      Retro24/Proofs/Session/Honoured.lean
  Subject:   Exactly which files are settings, and what becomes of all others.

  * `KeyBindings.IsBindings`: the texts of bindings, an object with all of them or a list of all of
    them in order; `KeyBindings.reads_bindings`: they are read exactly.
  * `Settings.Told`: what the members of an object say about settings; `Settings.Honoured`: the files
    that are settings, which are the objects that offer some (`Settings.Offers`) and in which every
    name is a text. `Settings.honoured_iff`: they are the objects with members that tell settings.
  * `Settings.parse_of_honoured`, `Settings.honoured_of_parse`: they are parsed, and no other objects
    are.
  * `Settings.honoured_or_ignored`: the statement about every file; `Settings.offer_ignored`: an offer
    with half of a character in a name that nobody looks for.
-/
import Mathlib.Data.List.Defs
import Retro24.Proofs.Json.Fields
import Retro24.Proofs.Session.Bindings

namespace Retro24

open Json

theorem isText_unique (v : List Char) (s t : String) (left : IsText v s) (right : IsText v t) :
    s = t :=
  (reads_text v.length "a string").unique (Nat.le_refl _) left right

/-! ## 1. Bindings -/

namespace KeyBindings

/-- What a text makes of bindings under a name. -/
def Takes (name : String) (v : List Char) (k next : KeyBindings) : Prop :=
  ∃ b : Key, name = b.label ∧ ∃ s, IsText v s ∧ k.rebind b s = next

theorem takes_label {b : Key} {v : List Char} {k next : KeyBindings} :
    Takes b.label v k next ↔ ∃ s, IsText v s ∧ k.rebind b s = next := by
  constructor
  · rintro ⟨c, same, taken⟩
    rw [Key.label_inj.mp same]
    exact taken
  · intro taken
    exact ⟨b, rfl, taken⟩

theorem Takes.written {name : String} {v : List Char} {k next : KeyBindings}
    (taken : Takes name v k next) : Written .value v := by
  obtain ⟨b, -, s, text, -⟩ := taken
  exact text.written

theorem exactFields (limit : Nat) : ExactFields limit fields Takes := by
  intro f inside k
  rw [fields_eq] at inside
  obtain ⟨b, -, rfl⟩ := List.mem_map.mp inside
  exact ((reads_text limit "a string").map (k.rebind b)).congr fun v next => takes_label.symm

theorem names_fields : fields.map FieldReader.name = Key.all.map Key.label := rfl

theorem follows (b : Key) : Follows (Key.all.map Key.label) Takes b.label IsText (bound · b) where
  known := List.mem_map_of_mem (Key.mem_all b)
  own taken := by
    obtain ⟨s, text, rfl⟩ := takes_label.mp taken
    rw [bound_rebind_self]
    exact text
  others other taken := by
    obtain ⟨c, rfl, s, -, rfl⟩ := taken
    exact bound_rebind_of_ne _ (fun same => other (congrArg Key.label same)) s

/-- The text of bindings: an object with every key once, or a list of all keys in order. -/
inductive IsBindings : List Char → KeyBindings → Prop where
  | object {ms : List (String × List Char)} {r : List Char} {k : KeyBindings}
      (members : Members true ms r) (told : ∀ b : Key, Once IsText ms b.label (k.bound b)) :
      IsBindings ('{' :: r) k
  | array {vs : List (List Char)} {r : List Char} {k : KeyBindings} (items : Items true vs r)
      (told : List.Forall₂ (fun v b => IsText v (k.bound b)) vs Key.all) : IsBindings ('[' :: r) k

/-- Elements are taken under a list of keys when they are what is bound to these keys. -/
theorem takenInOrder_iff {keys : List Key} (distinct : keys.Nodup) (draft last : KeyBindings)
    (vs : List (List Char)) :
    TakenInOrder Takes (keys.map Key.label) draft vs last ∧ vs.length = keys.length ↔
      List.Forall₂ (fun v b => IsText v (last.bound b)) vs keys ∧
        ∀ b, b ∉ keys → last.bound b = draft.bound b := by
  induction keys generalizing draft vs with
  | nil =>
    constructor
    · rintro ⟨taken, none⟩
      rw [List.length_eq_zero_iff.mp none] at taken ⊢
      cases taken
      exact ⟨.nil, fun _ _ => rfl⟩
    · rintro ⟨none, kept⟩
      cases none
      rw [ext_bound fun b => kept b List.not_mem_nil]
      exact ⟨.nil, rfl⟩
  | cons b keys ih =>
    rw [List.nodup_cons] at distinct
    constructor
    · rintro ⟨taken, all⟩
      cases taken with
      | nil => cases all
      | cons first others =>
        obtain ⟨s, text, rfl⟩ := takes_label.mp first
        obtain ⟨told, kept⟩ := (ih distinct.2 _ _).mp ⟨others, Nat.succ.inj all⟩
        refine ⟨.cons ?_ told, fun c other => ?_⟩
        · rw [kept b distinct.1, bound_rebind_self]
          exact text
        · rw [List.mem_cons, not_or] at other
          rw [kept c other.2, bound_rebind_of_ne _ (Ne.symm other.1)]
    · rintro ⟨told, kept⟩
      cases told with
      | cons text told =>
        have rebound (c : Key) (other : c ∉ keys) :
            last.bound c = (draft.rebind b (last.bound b)).bound c := by
          by_cases same : c = b
          · rw [same, bound_rebind_self]
          · rw [bound_rebind_of_ne _ (Ne.symm same)]
            exact kept c fun inside => (List.mem_cons.mp inside).elim same other
        obtain ⟨taken, all⟩ := (ih distinct.2 _ _).mpr ⟨told, rebound⟩
        exact ⟨.cons (takes_label.mpr ⟨_, text, rfl⟩) taken, congrArg Nat.succ all⟩

theorem structText_iff (blank : KeyBindings) (v : List Char) (k : KeyBindings) :
    StructText true (fields.map FieldReader.name) Takes blank v k ↔ IsBindings v k := by
  rw [names_fields]
  constructor
  · intro text
    cases text with
    | object members taken all =>
      refine .object members fun b => (taken.tells (follows b)).once ?_
      exact all rfl b.label (List.mem_map_of_mem (Key.mem_all b))
    | array items taken all =>
      refine .array items ((takenInOrder_iff (by decide) blank k _).mp ⟨taken, ?_⟩).1
      rw [all rfl, List.length_map]
  · intro text
    cases text with
    | @object ms r k members told =>
      have said (b : Key) : AtMostOnce IsText ms b.label (blank.bound b) (k.bound b) :=
        .inl (told b)
      have takes : ∃ last, Taken (Key.all.map Key.label) Takes [] blank ms last := by
        refine exists_taken blank [] fun name inside => ?_
        obtain ⟨b, -, rfl⟩ := List.mem_map.mp inside
        exact (said b).exists_next fun v s draft text =>
          ⟨draft.rebind b s, takes_label.mpr ⟨s, text, rfl⟩⟩
      obtain ⟨last, taken⟩ := takes
      have same : last = k := ext_bound fun b =>
        (taken.tells (follows b)).unique isText_unique (said b)
      rw [same] at taken
      refine .object members taken fun _ name inside => ?_
      obtain ⟨b, -, rfl⟩ := List.mem_map.mp inside
      exact (told b).given
    | array items told =>
      obtain ⟨taken, all⟩ := (takenInOrder_iff (by decide) blank k _).mpr
        ⟨told, fun b other => absurd (Key.mem_all b) other⟩
      exact .array items taken fun _ => by rw [all, List.length_map]

/-- **Bindings are read exactly.** -/
theorem reads_bindings (limit : Nat) :
    Reads limit (readStruct limit "struct KeyMapping" true fields .standard) IsBindings :=
  (reads_struct (exactFields limit) (fun _ _ _ _ => Takes.written) _ true .standard).congr
    (structText_iff .standard)

theorem IsBindings.written {v : List Char} {k : KeyBindings} (bindings : IsBindings v k) :
    Written .value v :=
  ((structText_iff k v k).mpr bindings).written

theorem isBindings_unique (v : List Char) (k l : KeyBindings) (left : IsBindings v k)
    (right : IsBindings v l) : k = l :=
  (reads_bindings v.length).unique (Nat.le_refl _) left right

end KeyBindings

/-! ## 2. Settings -/

namespace Settings

/-- What a text makes of settings under a name. -/
def Takes (name : String) (v : List Char) (s next : Settings) : Prop :=
  (name = "clock_speed" ∧
    ∃ x, NameText ClockRate.names v x ∧ { s with clockRate := x } = next) ∨
  (name = "cycles_per_frame" ∧
    ∃ n, IsNat 0x100000000 v n ∧ { s with batchLength := UInt32.ofNat n } = next) ∨
  (name = "scale" ∧ ∃ n, IsNat 0x100 v n ∧ { s with scale := UInt8.ofNat n } = next) ∨
  (name = "keyboard" ∧ ∃ k, KeyBindings.IsBindings v k ∧ { s with keyboard := k } = next)

theorem Takes.written {name : String} {v : List Char} {s next : Settings}
    (taken : Takes name v s next) : Written .value v := by
  rcases taken with ⟨-, x, text, -⟩ | ⟨-, n, text, -⟩ | ⟨-, n, text, -⟩ | ⟨-, k, text, -⟩
  · exact text.written
  · exact text.written
  · exact text.written
  · exact text.written

/-- What is under one name leaves the rest of the settings as it is. -/
theorem Takes.kept {name : String} {v : List Char} {s next : Settings}
    (taken : Takes name v s next) :
    (name ≠ "clock_speed" → next.clockRate = s.clockRate) ∧
    (name ≠ "cycles_per_frame" → next.batchLength = s.batchLength) ∧
    (name ≠ "scale" → next.scale = s.scale) ∧ (name ≠ "keyboard" → next.keyboard = s.keyboard) := by
  rcases taken with ⟨rfl, x, -, rfl⟩ | ⟨rfl, n, -, rfl⟩ | ⟨rfl, n, -, rfl⟩ | ⟨rfl, k, -, rfl⟩
  · exact ⟨absurd rfl, fun _ => rfl, fun _ => rfl, fun _ => rfl⟩
  · exact ⟨fun _ => rfl, absurd rfl, fun _ => rfl, fun _ => rfl⟩
  · exact ⟨fun _ => rfl, fun _ => rfl, absurd rfl, fun _ => rfl⟩
  · exact ⟨fun _ => rfl, fun _ => rfl, fun _ => rfl, absurd rfl⟩

theorem exactFields (limit : Nat) : ExactFields limit (fields limit) Takes := by
  have word : 0x100000000 ≤ 0x10000000000000000 := by decide
  have byte : 0x100 ≤ 0x10000000000000000 := by decide
  intro f inside s
  simp only [fields, List.mem_cons, List.not_mem_nil, or_false] at inside
  rcases inside with rfl | rfl | rfl | rfl
  · refine ((reads_name limit ClockRate.names).map ({ s with clockRate := · })).congr ?_
    simp [Takes]
  · refine ((reads_nat limit "u32" word).map
      fun n => { s with batchLength := UInt32.ofNat n }).congr ?_
    simp [Takes]
  · refine ((reads_nat limit "u8" byte).map fun n => { s with scale := UInt8.ofNat n }).congr ?_
    simp [Takes]
  · refine ((KeyBindings.reads_bindings limit).map ({ s with keyboard := · })).congr ?_
    simp [Takes]

/-- The names in settings files. -/
def labels : List String := ["clock_speed", "cycles_per_frame", "scale", "keyboard"]

theorem follows_clockRate :
    Follows labels Takes "clock_speed" (NameText ClockRate.names) clockRate where
  known := by decide
  own taken := by
    simp only [Takes, String.reduceEq, false_and, or_false, true_and] at taken
    obtain ⟨x, text, rfl⟩ := taken
    exact text
  others other taken := taken.kept.1 other

theorem follows_batchLength :
    Follows labels Takes "cycles_per_frame" (IsNat 0x100000000) (·.batchLength.toNat) where
  known := by decide
  own taken := by
    simp only [Takes, String.reduceEq, false_and, or_false, false_or, true_and] at taken
    obtain ⟨n, text, rfl⟩ := taken
    rw [UInt32.toNat_ofNat_of_lt' text.2]
    exact text
  others other taken := congrArg UInt32.toNat (taken.kept.2.1 other)

theorem follows_scale : Follows labels Takes "scale" (IsNat 0x100) (·.scale.toNat) where
  known := by decide
  own taken := by
    simp only [Takes, String.reduceEq, false_and, or_false, false_or, true_and] at taken
    obtain ⟨n, text, rfl⟩ := taken
    rw [UInt8.toNat_ofNat_of_lt' text.2]
    exact text
  others other taken := congrArg UInt8.toNat (taken.kept.2.2.1 other)

theorem follows_keyboard : Follows labels Takes "keyboard" KeyBindings.IsBindings keyboard where
  known := by decide
  own taken := by
    simp only [Takes, String.reduceEq, false_and, false_or, true_and] at taken
    obtain ⟨k, text, rfl⟩ := taken
    exact text
  others other taken := taken.kept.2.2.2 other

/-- The settings that the members of an object tell: each part is what stands under its name, which
    stands there once, or the standard one if the name does not stand there. What else is there does
    not count. -/
structure Told (ms : List (String × List Char)) (s : Settings) : Prop where
  clockRate : AtMostOnce (NameText ClockRate.names) ms "clock_speed" standard.clockRate s.clockRate
  batchLength : AtMostOnce (IsNat 0x100000000) ms "cycles_per_frame" standard.batchLength.toNat
    s.batchLength.toNat
  scale : AtMostOnce (IsNat 0x100) ms "scale" standard.scale.toNat s.scale.toNat
  keyboard : AtMostOnce KeyBindings.IsBindings ms "keyboard" standard.keyboard s.keyboard

theorem Told.unique {ms : List (String × List Char)} {s t : Settings} (left : Told ms s)
    (right : Told ms t) : s = t := by
  have number {bound : Nat} (word : bound ≤ 0x10000000000000000) (v : List Char) (m n : Nat)
      (first : IsNat bound v m) (second : IsNat bound v n) : m = n :=
    (reads_nat v.length "" word).unique (Nat.le_refl _) first second
  have rate := left.clockRate.unique
    (fun v x y => (reads_name v.length ClockRate.names).unique (Nat.le_refl _)) right.clockRate
  have batch := left.batchLength.unique (number (by decide)) right.batchLength
  have scale := left.scale.unique (number (by decide)) right.scale
  have keyboard := left.keyboard.unique KeyBindings.isBindings_unique right.keyboard
  cases s
  cases t
  exact (Settings.mk.injEq ..).mpr
    ⟨rate, UInt32.toNat_inj.mp batch, UInt8.toNat_inj.mp scale, keyboard⟩

/-- **Members tell settings exactly where they are taken.** -/
theorem taken_iff {ms : List (String × List Char)} {s : Settings} :
    Taken labels Takes [] standard ms s ↔ Told ms s := by
  have told {s : Settings} (taken : Taken labels Takes [] standard ms s) : Told ms s := {
    clockRate := taken.tells follows_clockRate
    batchLength := (taken.tells follows_batchLength :)
    scale := (taken.tells follows_scale :)
    keyboard := taken.tells follows_keyboard }
  refine ⟨told, fun said => ?_⟩
  have takes : ∃ last, Taken labels Takes [] standard ms last := by
    refine exists_taken standard [] fun name inside => ?_
    simp only [labels, List.mem_cons, List.not_mem_nil, or_false] at inside
    rcases inside with rfl | rfl | rfl | rfl
    · exact said.clockRate.exists_next fun v x draft text => ⟨_, .inl ⟨rfl, x, text, rfl⟩⟩
    · exact said.batchLength.exists_next fun v n draft text => ⟨_, .inr (.inl ⟨rfl, n, text, rfl⟩)⟩
    · exact said.scale.exists_next fun v n draft text => ⟨_, .inr (.inr (.inl ⟨rfl, n, text, rfl⟩))⟩
    · exact said.keyboard.exists_next fun v k draft text =>
        ⟨_, .inr (.inr (.inr ⟨rfl, k, text, rfl⟩))⟩
  obtain ⟨last, taken⟩ := takes
  exact (told taken).unique said ▸ taken

/-- A text of an object with entries that offer settings, with nothing but spaces around: those of
    the entries whose names are texts tell them. -/
def Offers (text : String) (es : List (List Char × List Char)) (s : Settings) : Prop :=
  ∃ a ms r b, Spaces a ∧ Entries true es r ∧ Legible es ms ∧ Spaces b ∧
    text.toList = a ++ '{' :: (r ++ b) ∧ Told ms s

/-- A text that offers settings and in which every name is a text, also a name that nobody looks
    for. -/
def Honoured (text : String) (s : Settings) : Prop :=
  ∃ es, Offers text es s ∧ ∀ e ∈ es, ∃ name, IsText e.1 name

/-- So it is an object with members that tell settings. -/
theorem honoured_iff {text : String} {s : Settings} :
    Honoured text s ↔ ∃ a ms r b, Spaces a ∧ Members true ms r ∧ Spaces b ∧
      text.toList = a ++ '{' :: (r ++ b) ∧ Told ms s := by
  constructor
  · rintro ⟨es, ⟨a, ms, r, b, before, entries, legible, behind, same, told⟩, texts⟩
    exact ⟨a, ms, r, b, before, members_iff.mpr ⟨es, entries, legible, texts⟩, behind, same, told⟩
  · rintro ⟨a, ms, r, b, before, members, behind, same, told⟩
    obtain ⟨es, entries, legible, texts⟩ := members_iff.mp members
    exact ⟨es, ⟨a, ms, r, b, before, entries, legible, behind, same, told⟩, texts⟩

/-- **A text is parsed** where it is that of settings with nothing but spaces around. -/
theorem parse_eq_ok_iff {text : String} {s : Settings} :
    parse text = .ok s ↔ ∃ a v b, Spaces a ∧ StructText false labels Takes standard v s ∧ Spaces b ∧
      text.toList = a ++ (v ++ b) :=
  (reads_struct (exactFields text.length) (fun _ _ _ _ => Takes.written) "struct Settings" false
    standard).whole

theorem parse_of_honoured {text : String} {s : Settings} (honoured : Honoured text s) :
    parse text = .ok s := by
  obtain ⟨a, ms, r, b, before, members, behind, same, told⟩ := honoured_iff.mp honoured
  have settings : StructText false labels Takes standard _ s :=
    .object members (taken_iff.mpr told) nofun
  exact parse_eq_ok_iff.mpr ⟨a, _, b, before, settings, behind, same⟩

theorem isJson_of_parse {text : String} {s : Settings} (parsed : parse text = .ok s) :
    IsJson text := by
  obtain ⟨a, v, b, before, settings, behind, same⟩ := parse_eq_ok_iff.mp parsed
  exact ⟨a, v, b, before, settings.written, behind, same⟩

/-- No object is parsed but those that tell settings. -/
theorem honoured_of_parse {text : String} {s : Settings} (parsed : parse text = .ok s)
    (object : IsObject text) : Honoured text s := by
  obtain ⟨a, v, b, before, settings, behind, same⟩ := parse_eq_ok_iff.mp parsed
  cases settings with
  | object members taken _ =>
    exact honoured_iff.mpr ⟨a, _, _, b, before, members, behind, same, taken_iff.mp taken⟩
  | array items taken _ =>
    obtain ⟨s, r, t, spaces, -, -, other⟩ := object
    have front := congrArg skipSpace (same.symm.trans other)
    rw [skipSpace_append before, skipSpace_append spaces] at front
    cases front

/-- **Settings are honoured whole or not at all, if every name is a text.** A file whose text is an
    object that offers settings is those settings, with nothing to report, as long as no name in it
    holds half of a character; a value under a name that nobody looks for may be any value, of any
    size and however deep, and hold such halves. Every other object, and every text that is no JSON,
    counts as the standard settings, and that is reported; bytes that are no text count as a file that
    is not there. -/
theorem honoured_or_ignored (path : String) (bytes : ByteArray) :
    (∀ text s, textOf bytes = .ok text → Honoured text s →
      ofFile path (textOf bytes) = (s, [])) ∧
    (∀ text, textOf bytes = .ok text → ((IsObject text ∧ ∀ s, ¬Honoured text s) ∨ ¬IsJson text) →
      ∃ complaint, ofFile path (textOf bytes) =
        (standard, [.settingsIgnored path complaint])) ∧
    ((∀ text, textOf bytes ≠ .ok text) → ofFile path (textOf bytes) = (standard, [])) := by
  refine ⟨fun text s read honoured => ?_, fun text read other => ?_, fun none => ?_⟩
  · rw [read, ofFile, parse_of_honoured honoured]
  · rw [read, ofFile]
    cases parsed : parse text with
    | error complaint => exact ⟨complaint, rfl⟩
    | ok s =>
      rcases other with ⟨object, untold⟩ | broken
      · exact absurd (honoured_of_parse parsed object) (untold s)
      · exact absurd (isJson_of_parse parsed) broken
  · cases read : textOf bytes with
    | error e => rfl
    | ok text => exact absurd read (none text)

/-- A scale is taken beside the standard settings; not beside a value of another kind, nor where the
    text is cut short, nor from bytes that are no text. -/
theorem honoured_or_ignored_scale :
    ofFile "s" (textOf "\x7b\"scale\":3\x7d".toUTF8) = ({ standard with scale := 3 }, []) ∧
    (∃ complaint, ofFile "s" (textOf "\x7b\"scale\":3,\"keyboard\":null\x7d".toUTF8) =
      (standard, [.settingsIgnored "s" complaint])) ∧
    (∃ complaint, ofFile "s" (textOf "\x7b\"scale\":3".toUTF8) =
      (standard, [.settingsIgnored "s" complaint])) ∧
    ofFile "s" (textOf ⟨#[0xff]⟩) = (standard, []) := by
  have scale : IsText (quotedText "scale".toList) "scale" := isText_plain (by decide)
  have keyboard : IsText (quotedText "keyboard".toList) "keyboard" := isText_plain (by decide)
  have three : IsNat 0x100 ['3'] 3 := ⟨rfl, by decide⟩
  refine ⟨?_, ?_, ?_, ?_⟩
  · refine (honoured_or_ignored "s" _).1 _ _ (textOf_toUTF8 _) (honoured_iff.mpr ?_)
    refine ⟨[], [("scale", ['3'])], _, [], spaces_nil, .member (.first spaces_nil) scale spaces_nil
      spaces_nil three.written (.ended spaces_nil), spaces_nil, rfl, ?_⟩
    exact ⟨.inr ⟨rfl, rfl⟩, .inr ⟨rfl, rfl⟩, .inl ⟨['3'], rfl, three⟩, .inr ⟨rfl, rfl⟩⟩
  · refine (honoured_or_ignored "s" _).2.1 _ (textOf_toUTF8 _) (.inl ⟨?_, fun s honoured => ?_⟩)
    · have last : Members false [("keyboard", ['n', 'u', 'l', 'l'])] _ :=
        .member (.next spaces_nil spaces_nil) keyboard spaces_nil spaces_nil (.scalar .null)
          (.ended spaces_nil)
      have members := Members.member (.first spaces_nil) scale spaces_nil spaces_nil three.written
        last
      exact ⟨[], _, [], spaces_nil, members.written, spaces_nil, rfl⟩
    · have refused : (parse "\x7b\"scale\":3,\"keyboard\":null\x7d").toOption = none := by
        decide +kernel
      rw [parse_of_honoured honoured] at refused
      cases refused
  · refine (honoured_or_ignored "s" _).2.1 _ (textOf_toUTF8 _) (.inr fun json => ?_)
    have refused : (skipValue 10 "\x7b\"scale\":3".toList).toOption = none := by decide +kernel
    rw [show skipValue 10 _ = .ok [] from isJson_iff.mp json] at refused
    cases refused
  · refine (honoured_or_ignored "s" _).2.2 fun text read => ?_
    cases read

/-- The first half of a character is no text. -/
theorem not_isText_half (name : String) : ¬ IsText (quotedText "\\ud800".toList) name := by
  intro text
  have read := (reads_text 8 "").complete spaces_nil text ends_nil (by decide)
  have refused : (readText "" (quotedText "\\ud800".toList)).toOption = none := by decide +kernel
  rw [List.nil_append, List.append_nil] at read
  rw [read] at refused
  cases refused

/-- **A name that nobody looks for spoils an offer**, if it holds half of a character: the object
    offers a scale, and the file counts as the standard settings. -/
theorem offer_ignored :
    (∃ es, Offers "\x7b\"\\ud800\":1,\"scale\":3\x7d" es { standard with scale := 3 }) ∧
    (∃ complaint, ofFile "s" (textOf "\x7b\"\\ud800\":1,\"scale\":3\x7d".toUTF8) =
      (standard, [.settingsIgnored "s" complaint])) ∧
    standard ≠ { standard with scale := 3 } := by
  have plain : ("scale".toList.all (decide <| Unescaped ·)) = true := by decide
  have one : IsNat 0x100 ['1'] 1 := ⟨rfl, by decide⟩
  have three : IsNat 0x100 ['3'] 3 := ⟨rfl, by decide⟩
  have half : Passed "\\ud800".toList :=
    .unit (.mk (a := 'd') (b := '8') (c := '0') (d := '0') rfl rfl rfl rfl) .nil
  have whole : Passed "scale".toList := (spelled_plain plain).passed
  refine ⟨?_, ?_, by decide⟩
  · have last : Entries false [(quotedText "scale".toList, ['3'])] _ :=
      .entry (.next spaces_nil spaces_nil) whole spaces_nil spaces_nil three.written
        (.ended spaces_nil)
    have entries := Entries.entry (.first spaces_nil) half spaces_nil spaces_nil one.written last
    refine ⟨_, [], [("scale", ['3'])], _, [], spaces_nil, entries,
      .garbled not_isText_half (.named (isText_plain plain) .nil), spaces_nil, rfl, ?_⟩
    exact ⟨.inr ⟨rfl, rfl⟩, .inr ⟨rfl, rfl⟩, .inl ⟨['3'], rfl, three⟩, .inr ⟨rfl, rfl⟩⟩
  · have refused : (parse "\x7b\"\\ud800\":1,\"scale\":3\x7d").toOption = none := by decide +kernel
    rw [textOf_toUTF8, ofFile]
    cases parsed : parse "\x7b\"\\ud800\":1,\"scale\":3\x7d" with
    | error complaint => exact ⟨complaint, rfl⟩
    | ok s =>
      rw [parsed] at refused
      cases refused

end Settings

end Retro24

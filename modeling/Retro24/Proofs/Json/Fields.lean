/-
  File:      Retro24/Proofs/Json/Fields.lean
  Subject:   Exactly which texts are read as structures.

  * `key_of_nextKey`, `end_of_nextKey`, `lead_of_nextElement`, `end_of_nextElement`: what stands
    between the parts of a container.
  * `Taken`, `TakenInOrder`: members and elements taken into a draft, one after another.
  * `taken_of_readFields`, `readFields_taken`: an object is read exactly as its members are taken; the
    same for arrays, by induction on their parts.
  * `StructText`, `reads_struct`: structures are read exactly.
  * `textsUnder`, `Once`, `AtMostOnce`: what the members of an object say under a key.
  * `Follows`: a key and the part of a structure that it fills, and no other. `Taken.atMostOnce` and
    `exists_taken` say what members take, key by key.
-/
import Retro24.Proofs.Json.Exactness

namespace Retro24.Json

variable {rest : List Char}

/-! ## 1. Between the parts -/

theorem skipSpace_skipSpace (cs : List Char) : skipSpace (skipSpace cs) = skipSpace cs := by
  obtain ⟨s, spaces, front⟩ := exists_spaces cs
  exact (skipSpace_append spaces (skipSpace cs)).symm.trans (congrArg skipSpace front.symm)

theorem spaced_of_skipSpace {cs : List Char} {c : Char} (front : skipSpace cs = c :: rest) :
    ∃ s, Spaces s ∧ cs = s ++ c :: rest := by
  obtain ⟨s, spaces, same⟩ := exists_spaces cs
  exact ⟨s, spaces, front ▸ same⟩

/-- The end of an object, where no key follows. -/
theorem end_of_nextKey {first : Bool} {cs : List Char} (next : nextKey first cs = .ok (false, rest)) :
    ∃ s cs', Spaces s ∧ cs = s ++ '}' :: cs' ∧ rest = '}' :: cs' := by
  unfold nextKey at next
  dsimp only at next
  split at next
  · cases next
  · next closed =>
    cases next
    obtain ⟨s, spaces, rfl⟩ := spaced_of_skipSpace closed
    exact ⟨s, _, spaces, rfl, closed⟩
  · split at next
    · split at next <;> cases next
    · split at next
      · split at next <;> cases next
      · cases next

/-- What leads to a key, where one follows. -/
theorem key_of_nextKey {first : Bool} {cs : List Char} (next : nextKey first cs = .ok (true, rest)) :
    ∃ l, Leads first l ∧ cs = l ++ '"' :: rest := by
  unfold nextKey at next
  dsimp only at next
  split at next
  · cases next
  · cases next
  · next c cs' other front =>
    obtain ⟨s, spaces, rfl⟩ := spaced_of_skipSpace front
    split at next
    · next one =>
      split at next
      · next quote =>
        cases next
        rw [one, quote]
        exact ⟨s, .first spaces, rfl⟩
      · cases next
    · next more =>
      split at next
      · next comma =>
        split at next
        · cases next
        · next quote =>
          cases next
          obtain ⟨t, behind, rfl⟩ := spaced_of_skipSpace quote
          rw [Bool.eq_false_iff.mpr more, comma]
          refine ⟨_, .next spaces behind, ?_⟩
          rw [List.append_assoc]
          rfl
        · cases next
        · cases next
      · cases next

theorem nextKey_skipSpace (first : Bool) (cs : List Char) :
    nextKey first (skipSpace cs) = nextKey first cs := by
  simp only [nextKey, skipSpace_skipSpace]

/-- The end of a list, where no element follows. -/
theorem end_of_nextElement {first : Bool} {cs : List Char}
    (next : nextElement first cs = .ok (false, rest)) :
    ∃ s cs', Spaces s ∧ cs = s ++ ']' :: cs' ∧ rest = ']' :: cs' := by
  unfold nextElement at next
  dsimp only at next
  split at next
  · cases next
  · next closed =>
    cases next
    obtain ⟨s, spaces, rfl⟩ := spaced_of_skipSpace closed
    exact ⟨s, _, spaces, rfl, closed⟩
  · split at next
    · cases next
    · split at next
      · split at next <;> cases next
      · cases next

/-- What leads to an element, where one follows. -/
theorem lead_of_nextElement {first : Bool} {cs : List Char}
    (next : nextElement first cs = .ok (true, rest)) : ∃ l, Leads first l ∧ cs = l ++ rest := by
  unfold nextElement at next
  dsimp only at next
  split at next
  · cases next
  · cases next
  · next c cs' other front =>
    obtain ⟨s, spaces, same⟩ := exists_spaces cs
    split at next
    · next one =>
      cases next
      rw [one]
      exact ⟨s, .first spaces, same⟩
    · next more =>
      split at next
      · next comma =>
        split at next
        · cases next
        · cases next
        · cases next
          obtain ⟨t, behind, within⟩ := exists_spaces cs'
          rw [Bool.eq_false_iff.mpr more]
          refine ⟨_, .next spaces behind, ?_⟩
          rw [List.append_assoc, List.cons_append, ← within, ← comma, ← front, ← same]
      · cases next

/-- **A list ends at its bracket.** -/
theorem endList_iff {cs : List Char} :
    endList cs = .ok rest ↔ ∃ s, Spaces s ∧ cs = s ++ ']' :: rest := by
  constructor
  · intro done
    unfold endList at done
    dsimp only at done
    split at done
    · cases done
    · next closed =>
      cases done
      exact spaced_of_skipSpace closed
    · split at done <;> cases done
    · cases done
  · rintro ⟨s, spaces, rfl⟩
    have bracket : isSpace ']' = false := rfl
    simp only [endList, skipSpace_append spaces, skipSpace_cons bracket]

/-! ## 2. Objects -/

section Structures

variable {σ : Type} {limit : Nat} {required : Bool} {fields : List (FieldReader σ)}
  {names : List String} {takes : String → List Char → σ → σ → Prop}
  {draft last : σ} {present : List String}

/-- Members taken into a draft one after another, of each name in a list at most one and not one that
    is present already. -/
inductive Taken (names : List String) (takes : String → List Char → σ → σ → Prop) :
    List String → σ → List (String × List Char) → σ → Prop where
  | nil {present : List String} {draft : σ} : Taken names takes present draft [] draft
  | passed {present : List String} {draft last : σ} {key : String} {v : List Char}
      {ms : List (String × List Char)} (unknown : key ∉ names)
      (others : Taken names takes present draft ms last) :
      Taken names takes present draft ((key, v) :: ms) last
  | taken {present : List String} {draft next last : σ} {key : String} {v : List Char}
      {ms : List (String × List Char)} (known : key ∈ names) (fresh : key ∉ present)
      (taken : takes key v draft next) (others : Taken names takes (key :: present) next ms last) :
      Taken names takes present draft ((key, v) :: ms) last

/-- Fields that read exactly what is taken under their names. -/
def ExactFields (limit : Nat) (fields : List (FieldReader σ))
    (takes : String → List Char → σ → σ → Prop) : Prop :=
  ∀ field ∈ fields, ∀ draft, Reads limit (field.read · draft) (takes field.name · draft ·)

theorem find?_field_eq_some {key : String} {field : FieldReader σ}
    (found : fields.find? (fun f => f.name == key) = some field) :
    field ∈ fields ∧ field.name = key := by
  have named := List.find?_some found
  exact ⟨List.mem_of_find?_eq_some found, eq_of_beq named⟩

theorem find?_field_eq_none {key : String} :
    fields.find? (fun f => f.name == key) = none ↔ key ∉ fields.map FieldReader.name := by
  rw [List.find?_eq_none]
  simp

theorem exists_field {key : String} (known : key ∈ fields.map FieldReader.name) :
    ∃ field, fields.find? (fun f => f.name == key) = some field ∧ field ∈ fields ∧
      field.name = key := by
  cases found : fields.find? (fun f => f.name == key) with
  | none => exact absurd known (find?_field_eq_none.mp found)
  | some field => exact ⟨field, rfl, find?_field_eq_some found⟩

theorem Members.spaced {first : Bool} {ms : List (String × List Char)} {r s : List Char}
    (members : Members first ms r) (spaces : Spaces s) : Members first ms (s ++ r) := by
  cases members with
  | ended more =>
    rw [← List.append_assoc]
    exact .ended (spaces.append more)
  | member leads named before behind value others =>
    rw [← List.append_assoc]
    exact .member (leads.indented spaces) named before behind value others

/-- A turn ends an object in which nothing is missing, passes over a member of no field, or reads the
    value of a field that was not given yet. -/
theorem readFields_cases {first : Bool} {cs : List Char} {turns : Nat}
    (read : readFields limit required fields first present draft cs (turns + 1) = .ok (last, rest)) :
    (∃ s, Spaces s ∧ cs = s ++ '}' :: rest ∧ last = draft ∧
      (required = true → ∀ field ∈ fields, field.name ∈ present)) ∨
    ∃ l k name t behind, Leads first l ∧ IsText k name ∧ Spaces t ∧
      cs = l ++ (k ++ (t ++ ':' :: behind)) ∧
      ((name ∉ fields.map FieldReader.name ∧ ∃ left, skipValue limit behind = .ok left ∧
          readFields limit required fields false present draft left turns = .ok (last, rest)) ∨
        ∃ field ∈ fields, field.name = name ∧ name ∉ present ∧
          ∃ next left, field.read behind draft = .ok (next, left) ∧
            readFields limit required fields false (name :: present) next left turns =
              .ok (last, rest)) := by
  rw [readFields] at read
  split at read
  · cases read
  · next closed =>
    obtain ⟨s, cs', spaces, rfl, rfl⟩ := end_of_nextKey closed
    split at read
    · cases read
    · next none =>
      cases read
      refine .inl ⟨s, spaces, rfl, rfl, fun needed field inside => ?_⟩
      have given := List.find?_eq_none.mp none field inside
      rw [needed] at given
      simpa using given
  · next opened =>
    obtain ⟨l, leads, rfl⟩ := key_of_nextKey opened
    split at read
    · cases read
    · next name after string =>
      obtain ⟨raw, spelled, rfl⟩ := readString_iff.mp string
      have named : IsText (quotedText raw) name := ⟨raw, spelled, rfl⟩
      split at read
      · next unknown =>
        split at read
        · cases read
        · next left skipped =>
          obtain ⟨t, behind, spaces, rfl, passed⟩ := behind_colon skipped
          refine .inr ⟨l, _, name, t, behind, leads, named, spaces, ?_,
            .inl ⟨find?_field_eq_none.mp unknown, left, passed, read⟩⟩
          rw [quotedText_append]
      · next field found =>
        obtain ⟨inside, same⟩ := find?_field_eq_some found
        split at read
        · cases read
        · next fresh =>
          rw [List.contains_eq_mem, decide_eq_true_eq] at fresh
          split at read
          · cases read
          · next taken left done =>
            obtain ⟨t, behind, spaces, rfl, value⟩ := behind_colon done
            refine .inr ⟨l, _, name, t, behind, leads, named, spaces, ?_,
              .inr ⟨field, inside, same, fresh, taken, left, value, read⟩⟩
            rw [quotedText_append]

/-- **What is read from the members of an object is taken from them.** -/
theorem taken_of_readFields (reads : ExactFields limit fields takes)
    (values : ∀ key v draft next, takes key v draft next → Written .value v) {first : Bool}
    {cs : List Char} {turns : Nat}
    (read : readFields limit required fields first present draft cs turns = .ok (last, rest)) :
    ∃ ms r, Members first ms r ∧ cs = r ++ rest ∧
      Taken (fields.map FieldReader.name) takes present draft ms last ∧
      (required = true → ∀ name ∈ fields.map FieldReader.name,
        name ∈ present ∨ name ∈ ms.map Prod.fst) := by
  induction turns generalizing first present draft cs with
  | zero =>
    rw [readFields_zero] at read
    cases read
  | succ turns ih =>
    rcases readFields_cases read with ⟨s, spaces, rfl, rfl, all⟩ |
      ⟨l, k, name, t, behind, leads, named, before, rfl, passed | taken⟩
    · refine ⟨[], _, .ended spaces, ?_, .nil, fun needed name inside => .inl ?_⟩
      · rw [List.append_assoc]
        rfl
      · obtain ⟨field, listed, rfl⟩ := List.mem_map.mp inside
        exact all needed field listed
    · obtain ⟨unknown, left, skipped, others⟩ := passed
      obtain ⟨u, v, w, between, value, more, rfl⟩ := written_of_skipValue skipped
      obtain ⟨ms, r, members, rfl, taken, all⟩ := ih others
      refine ⟨(name, v) :: ms, _, .member leads named before between value (members.spaced more),
        ?_, .passed unknown taken, fun needed key inside => ?_⟩
      · simp only [List.append_assoc, List.cons_append]
      · exact (all needed key inside).imp id (List.mem_cons_of_mem name)
    · obtain ⟨field, inside, rfl, fresh, next, left, done, others⟩ := taken
      obtain ⟨u, v, between, taken, rfl⟩ := (reads field inside draft).sound done
      obtain ⟨ms, r, members, rfl, more, all⟩ := ih others
      refine ⟨(field.name, v) :: ms, _,
        .member leads named before between (values _ _ _ _ taken) members, ?_,
        .taken (List.mem_map_of_mem inside) fresh taken more, fun needed key listed => ?_⟩
      · simp only [List.append_assoc, List.cons_append]
      · rcases all needed key listed with here | there
        · rcases List.mem_cons.mp here with rfl | earlier
          · exact .inr List.mem_cons_self
          · exact .inl earlier
        · exact .inr (List.mem_cons_of_mem _ there)

theorem Members.length_lt {first : Bool} {ms : List (String × List Char)} {r : List Char}
    (members : Members first ms r) : ms.length < r.length := by
  induction members with
  | ended spaces =>
    rw [List.length_append, List.length_singleton]
    exact Nat.succ_pos _
  | member _ _ _ _ _ _ ih =>
    simp only [List.length_append, List.length_cons]
    omega

theorem Members.ends {ms : List (String × List Char)} {r : List Char}
    (members : Members false ms r) (rest : List Char) : Ends (r ++ rest) :=
  members.written.ends rest

theorem readFields_skipSpace (first : Bool) (present : List String) (draft : σ) (cs : List Char)
    {turns : Nat} (more : 0 < turns) :
    readFields limit required fields first present draft (skipSpace cs) turns =
      readFields limit required fields first present draft cs turns := by
  obtain ⟨turns, rfl⟩ := Nat.exists_eq_add_one.mpr more
  simp only [readFields, nextKey_skipSpace]

/-- **Members that are taken are read.** -/
theorem readFields_taken (reads : ExactFields limit fields takes) {first : Bool}
    {ms : List (String × List Char)} {r : List Char} (members : Members first ms r)
    (taken : Taken (fields.map FieldReader.name) takes present draft ms last)
    (all : required = true → ∀ name ∈ fields.map FieldReader.name,
      name ∈ present ∨ name ∈ ms.map Prod.fst)
    (room : r.length ≤ limit) {turns : Nat} (enough : ms.length < turns) :
    readFields limit required fields first present draft (r ++ rest) turns = .ok (last, rest) := by
  induction members generalizing present draft turns with
  | @ended first s spaces =>
    obtain ⟨turns, rfl⟩ := Nat.exists_eq_add_one.mpr (Nat.zero_lt_of_lt enough)
    cases taken
    have none : fields.find? (fun f => required && !present.contains f.name) = none :=
      find?_missing fun needed f inside =>
        (all needed f.name (List.mem_map_of_mem inside)).resolve_right List.not_mem_nil
    rw [List.append_assoc, List.singleton_append]
    simp only [readFields, nextKey_closing spaces, none, endObject_end]
    rfl
  | @member first name ms l k t u v r leads named before behind value others ih =>
    obtain ⟨turns, rfl⟩ := Nat.exists_eq_add_one.mpr (Nat.zero_lt_of_lt enough)
    obtain ⟨raw, spelled, rfl⟩ := named
    simp only [List.length_append, List.length_cons] at room enough
    have colon : expectColon (t ++ ':' :: (u ++ (v ++ (r ++ rest)))) =
        .ok (u ++ (v ++ (r ++ rest))) := expectColon_iff.mpr ⟨t, before, rfl⟩
    simp only [List.append_assoc, List.cons_append, quotedText_append, readFields,
      nextKey_member leads, readString_spelled spelled, colon, Except.bind]
    cases taken with
    | passed unknown more =>
      have short : v.length ≤ limit := by omega
      have skipped := skipValue_written behind value (others.ends rest) short
      rw [find?_field_eq_none.mpr unknown, skipped]
      dsimp only
      rw [readFields_skipSpace _ _ _ _ (by omega)]
      refine ih more (fun needed key inside => ?_) (by omega) (by omega)
      rcases all needed key inside with earlier | here
      · exact .inl earlier
      · rcases List.mem_cons.mp here with rfl | there
        · exact absurd inside unknown
        · exact .inr there
    | taken known fresh takes more =>
      obtain ⟨field, found, inside, rfl⟩ := exists_field known
      have read := (reads field inside draft).complete behind takes (others.ends rest) (by omega)
      have given : present.contains field.name = false := by
        rw [List.contains_eq_mem]
        exact decide_eq_false fresh
      rw [found, given]
      dsimp only at read ⊢
      rw [read]
      refine ih more (fun needed key listed => ?_) (by omega) (by omega)
      rcases all needed key listed with earlier | here
      · exact .inl (List.mem_cons_of_mem _ earlier)
      · rcases List.mem_cons.mp here with rfl | there
        · exact .inl List.mem_cons_self
        · exact .inr there

/-! ## 3. Arrays -/

/-- Elements taken into a draft one after another, each under the next name of a list. -/
inductive TakenInOrder (takes : String → List Char → σ → σ → Prop) :
    List String → σ → List (List Char) → σ → Prop where
  | nil {names : List String} {draft : σ} : TakenInOrder takes names draft [] draft
  | cons {name : String} {names : List String} {draft next last : σ} {v : List Char}
      {vs : List (List Char)} (taken : takes name v draft next)
      (others : TakenInOrder takes names next vs last) :
      TakenInOrder takes (name :: names) draft (v :: vs) last

/-- The end of a list, where no element is left to be read. -/
theorem items_of_endList {first : Bool} {cs : List Char} (ended : endList cs = .ok rest) :
    ∃ r, Items first [] r ∧ cs = r ++ rest := by
  obtain ⟨s, spaces, rfl⟩ := endList_iff.mp ended
  refine ⟨_, .ended spaces, ?_⟩
  rw [List.append_assoc]
  rfl

theorem endList_of_map {cs : List Char}
    (read : (endList cs).map (fun rest => (draft, rest)) = .ok (last, rest)) :
    draft = last ∧ endList cs = .ok rest := by
  obtain ⟨_, ended, same⟩ := map_eq_ok_iff.mp read
  cases same
  exact ⟨rfl, ended⟩

/-- **What is read from the elements of a list is taken from them.** -/
theorem taken_of_readInOrder (reads : ExactFields limit fields takes)
    (values : ∀ key v draft next, takes key v draft next → Written .value v) {expected : String}
    {index : Nat} {cs : List Char}
    (read : readInOrder required expected index draft cs fields = .ok (last, rest)) :
    ∃ vs r, Items (index == 0) vs r ∧ cs = r ++ rest ∧
      TakenInOrder takes (fields.map FieldReader.name) draft vs last ∧
      (required = true → vs.length = fields.length) := by
  induction fields generalizing index draft cs with
  | nil =>
    obtain ⟨rfl, ended⟩ := endList_of_map read
    obtain ⟨r, items, same⟩ := items_of_endList ended
    exact ⟨[], r, items, same, .nil, fun _ => rfl⟩
  | cons field fields ih =>
    rw [readInOrder] at read
    split at read
    · cases read
    · next closed =>
      split at read
      · cases read
      · next optional =>
        obtain ⟨rfl, ended⟩ := endList_of_map read
        obtain ⟨s, cs', spaces, rfl, rfl⟩ := end_of_nextElement closed
        cases ended
        refine ⟨[], _, .ended spaces, ?_, .nil, fun needed => absurd needed optional⟩
        rw [List.append_assoc]
        rfl
    · next opened =>
      obtain ⟨l, leads, rfl⟩ := lead_of_nextElement opened
      split at read
      · cases read
      · next next left done =>
        obtain ⟨u, v, spaces, taken, rfl⟩ :=
          (reads field List.mem_cons_self draft).sound done
        have others := fun f inside => reads f (List.mem_cons_of_mem field inside)
        obtain ⟨vs, r, items, rfl, more, all⟩ := ih others read
        refine ⟨v :: vs, _, .item (leads.spaced spaces) (values _ _ _ _ taken) items, ?_,
          .cons taken more, fun needed => congrArg Nat.succ (all needed)⟩
        simp only [List.append_assoc]

theorem Items.ends {vs : List (List Char)} {r : List Char} (items : Items false vs r)
    (rest : List Char) : Ends (r ++ rest) :=
  items.written.ends rest

/-- **Elements that are taken are read.** -/
theorem readInOrder_taken (reads : ExactFields limit fields takes) {expected : String} {index : Nat}
    {vs : List (List Char)} {r : List Char} (items : Items (index == 0) vs r)
    (taken : TakenInOrder takes (fields.map FieldReader.name) draft vs last)
    (all : required = true → vs.length = fields.length) (room : r.length ≤ limit) :
    readInOrder required expected index draft (r ++ rest) fields = .ok (last, rest) := by
  induction fields generalizing index draft vs r with
  | nil =>
    cases taken
    cases items with
    | ended spaces =>
      rw [List.append_assoc, List.singleton_append, readInOrder,
        endList_iff.mpr ⟨_, spaces, rfl⟩]
      rfl
  | cons field fields ih =>
    rw [readInOrder]
    cases items with
    | ended spaces =>
      cases taken
      have optional : ¬required = true := fun needed => absurd (all needed) nofun
      rw [List.append_assoc, List.singleton_append, nextElement_closing spaces]
      dsimp only
      rw [if_neg optional, endList_end]
      rfl
    | @item _ _ l v r leads value items =>
      cases taken with
      | cons taken more =>
        simp only [List.length_append] at room
        have others := fun f inside => reads f (List.mem_cons_of_mem field inside)
        have short : v.length ≤ limit := by omega
        have read := (reads field List.mem_cons_self draft).complete spaces_nil taken
          (items.ends rest) short
        obtain ⟨c, cs, rfl, begins⟩ := value.exists_cons
        simp only [List.append_assoc, List.cons_append, List.nil_append] at read ⊢
        have starts : Starts (c :: (cs ++ (r ++ rest))) :=
          ⟨c, _, rfl, begins.space, begins.list .list⟩
        rw [nextElement_item leads starts]
        dsimp only
        rw [read]
        exact ih others items more (fun needed => Nat.succ.inj (all needed)) (by omega)

/-! ## 4. Structures -/

/-- The text of a structure: an object with members for its fields, or a list of them in order. -/
inductive StructText (required : Bool) (names : List String)
    (takes : String → List Char → σ → σ → Prop) (blank : σ) : List Char → σ → Prop where
  | object {ms : List (String × List Char)} {r : List Char} {x : σ} (members : Members true ms r)
      (taken : Taken names takes [] blank ms x)
      (all : required = true → ∀ name ∈ names, name ∈ ms.map Prod.fst) :
      StructText required names takes blank ('{' :: r) x
  | array {vs : List (List Char)} {r : List Char} {x : σ} (items : Items true vs r)
      (taken : TakenInOrder takes names blank vs x)
      (all : required = true → vs.length = names.length) :
      StructText required names takes blank ('[' :: r) x

theorem StructText.written {blank x : σ} {v : List Char}
    (text : StructText required names takes blank v x) : Written .value v := by
  cases text with
  | object members taken all => exact .container (c := .object) members.written
  | array items taken all => exact .container (c := .list) items.written

/-- **Structures are read exactly.** -/
theorem reads_struct (reads : ExactFields limit fields takes)
    (values : ∀ key v draft next, takes key v draft next → Written .value v) (name : String)
    (required : Bool) (blank : σ) :
    Reads limit (readStruct limit name required fields blank)
      (StructText required (fields.map FieldReader.name) takes blank) := by
  have brace : isSpace '{' = false := rfl
  have bracket : isSpace '[' = false := rfl
  constructor
  · rintro s v rest x spaces text - room
    cases text with
    | object members taken all =>
      rw [List.length_cons] at room
      have few := members.length_lt
      simp only [readStruct, List.cons_append, skipSpace_append spaces, skipSpace_cons brace]
      exact readFields_taken reads members taken
        (fun needed key inside => .inr (all needed key inside)) (by omega) (by omega)
    | array items taken all =>
      rw [List.length_cons] at room
      simp only [readStruct, List.cons_append, skipSpace_append spaces, skipSpace_cons bracket]
      refine readInOrder_taken reads items taken (fun needed => ?_) (by omega)
      rw [all needed, List.length_map]
  · intro cs rest x done
    obtain ⟨s, spaces, front⟩ := exists_spaces cs
    unfold readStruct at done
    dsimp only at done
    split at done
    · next opened =>
      obtain ⟨ms, r, members, rfl, taken, all⟩ := taken_of_readFields reads values done
      exact ⟨s, _, spaces, .object members taken fun needed key inside =>
        (all needed key inside).resolve_left List.not_mem_nil,
        front.trans (congrArg (s ++ ·) opened)⟩
    · next opened =>
      obtain ⟨vs, r, items, rfl, taken, all⟩ := taken_of_readInOrder reads values done
      refine ⟨s, _, spaces, .array items taken fun needed => ?_,
        front.trans (congrArg (s ++ ·) opened)⟩
      rw [all needed, List.length_map]
    · cases done

/-! ## 5. Keys -/

variable {α : Type} {ms : List (String × List Char)} {key : String}
  {text : List Char → α → Prop} {part : σ → α}

/-- The texts of the values under a key. -/
def textsUnder (key : String) (ms : List (String × List Char)) : List (List Char) :=
  (ms.filter fun m => m.1 == key).map Prod.snd

theorem textsUnder_cons_self (key : String) (v : List Char) (ms : List (String × List Char)) :
    textsUnder key ((key, v) :: ms) = v :: textsUnder key ms := by
  simp [textsUnder]

theorem textsUnder_cons_of_ne {name : String} (v : List Char) (ms : List (String × List Char))
    (other : name ≠ key) : textsUnder key ((name, v) :: ms) = textsUnder key ms := by
  simp [textsUnder, other]

theorem textsUnder_ne_nil (given : key ∈ ms.map Prod.fst) : textsUnder key ms ≠ [] := by
  obtain ⟨⟨name, v⟩, inside, rfl⟩ := List.mem_map.mp given
  exact List.ne_nil_of_mem (List.mem_map_of_mem (List.mem_filter.mpr ⟨inside, beq_self_eq_true _⟩))

theorem mem_of_textsUnder {v : List Char} (under : v ∈ textsUnder key ms) :
    key ∈ ms.map Prod.fst := by
  obtain ⟨⟨name, w⟩, inside, -⟩ := List.mem_map.mp under
  obtain ⟨inside, same⟩ := List.mem_filter.mp inside
  exact List.mem_map.mpr ⟨_, inside, eq_of_beq same⟩

/-- The members have a key once, with the text of a datum. -/
def Once (text : List Char → α → Prop) (ms : List (String × List Char)) (key : String) (x : α) :
    Prop :=
  ∃ v, textsUnder key ms = [v] ∧ text v x

/-- The members have a key once, with the text of a datum, or not at all, and then the datum is what
    stands in for it. -/
def AtMostOnce (text : List Char → α → Prop) (ms : List (String × List Char)) (key : String)
    (otherwise x : α) : Prop :=
  Once text ms key x ∨ textsUnder key ms = [] ∧ x = otherwise

/-- A key of a structure and the part of it that the key fills, and no other. -/
structure Follows (names : List String) (takes : String → List Char → σ → σ → Prop) (key : String)
    (text : List Char → α → Prop) (part : σ → α) : Prop where
  known : key ∈ names
  own {v : List Char} {draft next : σ} (taken : takes key v draft next) : text v (part next)
  others {name : String} {v : List Char} {draft next : σ} (other : name ≠ key)
    (taken : takes name v draft next) : part next = part draft

theorem AtMostOnce.fits {otherwise x : α} (said : AtMostOnce text ms key otherwise x) :
    (textsUnder key ms).length ≤ 1 ∧ ∀ v ∈ textsUnder key ms, ∃ x, text v x := by
  rcases said with ⟨v, under, written⟩ | ⟨none, -⟩
  · rw [under]
    refine ⟨Nat.le_refl 1, fun w inside => ⟨x, ?_⟩⟩
    rw [List.mem_singleton.mp inside]
    exact written
  · rw [none]
    exact ⟨Nat.zero_le 1, nofun⟩

/-- What is said under a key is taken by every draft, if every text of its data is. -/
theorem AtMostOnce.exists_next {otherwise x : α} (said : AtMostOnce text ms key otherwise x)
    (put : ∀ v x draft, text v x → ∃ next, takes key v draft next) :
    (textsUnder key ms).length ≤ 1 ∧ (key ∈ ([] : List String) → textsUnder key ms = []) ∧
      ∀ v ∈ textsUnder key ms, ∀ draft, ∃ next, takes key v draft next := by
  obtain ⟨once, fits⟩ := said.fits
  refine ⟨once, fun listed => absurd listed List.not_mem_nil, fun v under draft => ?_⟩
  obtain ⟨x, written⟩ := fits v under
  exact put v x draft written

theorem AtMostOnce.unique (single : ∀ v x y, text v x → text v y → x = y) {otherwise x y : α}
    (left : AtMostOnce text ms key otherwise x) (right : AtMostOnce text ms key otherwise y) :
    x = y := by
  rcases left with ⟨v, under, first⟩ | ⟨none, rfl⟩
  · rcases right with ⟨w, under', second⟩ | ⟨none, -⟩
    · rw [under] at under'
      cases under'
      exact single v x y first second
    · rw [under] at none
      cases none
  · rcases right with ⟨w, under, -⟩ | ⟨-, rfl⟩
    · rw [none] at under
      cases under
    · rfl

theorem AtMostOnce.once {otherwise x : α} (said : AtMostOnce text ms key otherwise x)
    (given : key ∈ ms.map Prod.fst) : Once text ms key x :=
  said.resolve_right fun none => textsUnder_ne_nil given none.1

theorem Once.given {x : α} (said : Once text ms key x) : key ∈ ms.map Prod.fst := by
  obtain ⟨v, under, -⟩ := said
  have inside : v ∈ textsUnder key ms := by
    rw [under]
    exact List.mem_singleton_self v
  exact mem_of_textsUnder inside

/-- **What members take, they say under its key**: a part that is not present yet is what stands
    there, or what it was. -/
theorem Taken.atMostOnce (follows : Follows names takes key text part)
    (taken : Taken names takes present draft ms last) :
    if key ∈ present then textsUnder key ms = [] ∧ part last = part draft
    else AtMostOnce text ms key (part draft) (part last) := by
  induction taken with
  | nil =>
    split
    · exact ⟨rfl, rfl⟩
    · exact .inr ⟨rfl, rfl⟩
  | @passed present draft last name v ms unknown others ih =>
    have other : name ≠ key := fun same => unknown (same ▸ follows.known)
    rw [AtMostOnce, Once, textsUnder_cons_of_ne v ms other]
    exact ih
  | @taken present draft next last name v ms known fresh taken others ih =>
    by_cases same : name = key
    · subst same
      rw [if_pos List.mem_cons_self] at ih
      rw [if_neg fresh]
      refine .inl ⟨v, ?_, ?_⟩
      · rw [textsUnder_cons_self, ih.1]
      · rw [ih.2]
        exact follows.own taken
    · have listed : key ∈ name :: present ↔ key ∈ present := by
        rw [List.mem_cons, or_iff_right (Ne.symm same)]
      simp only [listed, follows.others same taken] at ih
      rw [AtMostOnce, Once, textsUnder_cons_of_ne v ms same]
      exact ih

theorem Taken.tells (follows : Follows names takes key text part)
    (taken : Taken names takes [] draft ms last) :
    AtMostOnce text ms key (part draft) (part last) := by
  have said := taken.atMostOnce follows
  rwa [if_neg List.not_mem_nil] at said

/-- **Members are taken** that have no known key twice and take every draft. -/
theorem exists_taken (draft : σ) (present : List String)
    (each : ∀ key ∈ names, (textsUnder key ms).length ≤ 1 ∧
      (key ∈ present → textsUnder key ms = []) ∧
      ∀ v ∈ textsUnder key ms, ∀ draft, ∃ next, takes key v draft next) :
    ∃ last, Taken names takes present draft ms last := by
  induction ms generalizing draft present with
  | nil => exact ⟨draft, .nil⟩
  | cons m ms ih =>
    obtain ⟨name, v⟩ := m
    by_cases known : name ∈ names
    · obtain ⟨once, fresh, takes⟩ := each name known
      rw [textsUnder_cons_self] at once fresh takes
      obtain ⟨next, taken⟩ := takes v List.mem_cons_self draft
      have none : textsUnder name ms = [] := List.eq_nil_of_length_eq_zero (by
        rw [List.length_cons] at once
        omega)
      obtain ⟨last, others⟩ := ih next (name :: present) fun key inside => by
        by_cases same : name = key
        · subst same
          rw [none]
          exact ⟨Nat.zero_le 1, fun _ => rfl, nofun⟩
        · have behind := each key inside
          rw [textsUnder_cons_of_ne v ms same] at behind
          refine ⟨behind.1, fun listed => behind.2.1 ?_, behind.2.2⟩
          exact (List.mem_cons.mp listed).resolve_left (Ne.symm same)
      exact ⟨last, .taken known (fun listed => absurd (fresh listed) (List.cons_ne_nil _ _)) taken
        others⟩
    · obtain ⟨last, others⟩ := ih draft present fun key inside => by
        have other : name ≠ key := fun same => known (same ▸ inside)
        have behind := each key inside
        rw [textsUnder_cons_of_ne v ms other] at behind
        exact behind
      exact ⟨last, .passed known others⟩

end Structures

end Retro24.Json

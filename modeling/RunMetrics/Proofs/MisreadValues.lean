import Mathlib.Data.List.Basic
import RunMetrics.Proofs.MemberKinds

/-!
Values that are misread. A value of the wrong shape is a fault of the data, and most readers say so; but some
call the text malformed at values which they cannot take, although it is a document. For each reader these
values are told apart from those that it takes and from those that it refuses for what they are; for lists
and records they follow from those of the parts, as the reader goes from one part to the next and stops at the
first that it does not take.
-/

set_option autoImplicit false

namespace RunMetrics.Json

/-! ### Where an outcome fails -/

section Outcomes

variable {α β : Type} {fault : Fault}

theorem bind_eq_error_iff {outcome : Except Fault α} {next : α → Except Fault β} :
    (outcome >>= next) = .error fault ↔
      outcome = .error fault ∨ ∃ x, outcome = .ok x ∧ next x = .error fault := by
  cases outcome <;> simp [Bind.bind, Except.bind]

theorem map_eq_error_iff {outcome : Except Fault α} {f : α → β} :
    outcome.map f = .error fault ↔ outcome = .error fault := by
  cases outcome <;> simp [Except.map]

/-- A fold fails at the first item that it cannot take. -/
theorem foldlM_eq_error_iff {step : β → α → Except Fault β} {xs : List α} {start : β} :
    xs.foldlM step start = .error fault ↔ ∃ before x after state, xs = before ++ x :: after ∧
      before.foldlM step start = .ok state ∧ step state x = .error fault := by
  constructor
  · intro failed
    induction xs generalizing start with
    | nil => cases failed
    | cons x xs ih =>
      rw [List.foldlM_cons] at failed
      obtain failed | ⟨state, taken, failed⟩ := bind_eq_error_iff.1 failed
      · exact ⟨[], x, xs, start, rfl, rfl, failed⟩
      · obtain ⟨before, y, after, last, rfl, folded, failed⟩ := ih failed
        refine ⟨x :: before, y, after, last, rfl, ?_, failed⟩
        rw [List.foldlM_cons]
        exact bind_eq_ok_iff.2 ⟨state, taken, folded⟩
  · rintro ⟨before, x, after, state, rfl, folded, failed⟩
    rw [List.foldlM_append]
    refine bind_eq_error_iff.2 (.inr ⟨state, folded, ?_⟩)
    rw [List.foldlM_cons]
    exact bind_eq_error_iff.2 (.inl failed)

theorem mapM_eq_error_iff {f : α → Except Fault β} {xs : List α} :
    xs.mapM f = .error fault ↔ ∃ before x after, xs = before ++ x :: after ∧
      (∀ b ∈ before, ∃ y, f b = .ok y) ∧ f x = .error fault := by
  constructor
  · intro failed
    induction xs with
    | nil => cases failed
    | cons x xs ih =>
      rw [List.mapM_cons] at failed
      obtain failed | ⟨y, taken, failed⟩ := bind_eq_error_iff.1 failed
      · exact ⟨[], x, xs, rfl, List.forall_mem_nil _, failed⟩
      · obtain failed | ⟨ys, -, failed⟩ := bind_eq_error_iff.1 failed
        · obtain ⟨before, z, after, rfl, earlier, failed⟩ := ih failed
          exact ⟨x :: before, z, after, rfl, List.forall_mem_cons.2 ⟨⟨y, taken⟩, earlier⟩, failed⟩
        · cases failed
  · rintro ⟨before, x, after, rfl, earlier, failed⟩
    obtain ⟨ys, taken⟩ := exists_mapM_eq_ok_iff.2 earlier
    rw [List.mapM_append, List.mapM_cons]
    exact bind_eq_error_iff.2 (.inr ⟨ys, taken, bind_eq_error_iff.2
      (.inl (bind_eq_error_iff.2 (.inl failed)))⟩)

end Outcomes

/-! ### Readers of trees -/

/-- The function of trees calls the text malformed at just the values that are misread. -/
def Misreads {α : Type} (tree : TreeReader α) (misread : Value → Prop) : Prop :=
  ∀ v, misread v ↔ ∃ cause, tree v = .error (.malformed cause)

section Readers

variable {α β : Type} {tree : TreeReader α} {fits misread : Value → Prop}

theorem misreads_nothing (blames : ∀ v, BlamesData (tree v)) : Misreads tree fun _ => False :=
  fun v => iff_of_false id fun ⟨cause, malformed⟩ => blames v cause malformed

theorem Misreads.blamesData (misreads : Misreads tree misread) {v : Value} (sound : ¬misread v) :
    BlamesData (tree v) :=
  fun cause malformed => sound ((misreads v).2 ⟨cause, malformed⟩)

theorem Misreads.map (misreads : Misreads tree misread) (f : α → β) :
    Misreads (fun v => (tree v).map f) misread := by
  intro v
  simp only [misreads v, map_eq_error_iff]

/-- The names of a fixed list are asked for. Anything but a text or an object is misread, and so is an object
without members, or one with a known name and null behind it that does not end there. -/
def IsNameMisread (names : List String) : Value → Prop
  | .text _ => False
  | .object [] => True
  | .object ((name, v) :: more) => name ∈ names ∧ v = .null ∧ more ≠ []
  | _ => True

/-- All items up to one that is misread are taken. -/
def IsListMisread (fits misread : Value → Prop) (v : Value) : Prop :=
  ∃ before w after, v = .list (before ++ w :: after) ∧ (∀ b ∈ before, fits b) ∧ misread w

namespace Codec

theorem blamesData_named {names : List (String × α)} (name : String) :
    BlamesData (named names name) := by
  unfold named
  split
  · exact blamesData_ok _
  · exact blamesData_unfit _

theorem blamesData_asNull (v : Value) : BlamesData (asNull v) := by
  cases v <;> nofun

theorem misreads_asNamed (names : List (String × α)) :
    Misreads (asNamed names) (IsNameMisread (names.map Prod.fst)) := by
  intro v
  match v with
  | .text s => exact iff_of_false id fun ⟨cause, malformed⟩ => blamesData_named s cause malformed
  | .object [] => exact iff_of_true trivial ⟨_, rfl⟩
  | .object ((name, v) :: more) =>
    constructor
    · rintro ⟨known, rfl, others⟩
      obtain ⟨x, found⟩ := exists_named_eq_ok_iff.2 known
      obtain ⟨m, more, rfl⟩ := List.exists_cons_of_ne_nil others
      exact ⟨_, bind_eq_error_iff.2 (.inr ⟨x, found, rfl⟩)⟩
    · rintro ⟨cause, malformed⟩
      obtain failed | ⟨x, found, malformed⟩ := bind_eq_error_iff.1 malformed
      · exact absurd failed (blamesData_named name cause)
      obtain failed | ⟨⟨⟩, null, malformed⟩ := bind_eq_error_iff.1 malformed
      · exact absurd failed (blamesData_asNull v cause)
      refine ⟨exists_named_eq_ok_iff.1 ⟨x, found⟩, asNull_eq_ok_iff.1 null, ?_⟩
      rintro rfl
      cases malformed
  | .null | .bool _ | .number _ | .list _ => exact iff_of_true trivial ⟨_, rfl⟩

theorem misreads_asList (accepts : Accepts tree fits) (misreads : Misreads tree misread) :
    Misreads (asList tree) (IsListMisread fits misread) := by
  intro v
  cases v with
  | list items =>
    simp only [IsListMisread, asList, mapM_eq_error_iff, Value.list.injEq]
    constructor
    · rintro ⟨before, w, after, rfl, earlier, wrong⟩
      obtain ⟨cause, malformed⟩ := (misreads w).1 wrong
      exact ⟨cause, before, w, after, rfl, fun b member => (accepts b).1 (earlier b member), malformed⟩
    · rintro ⟨cause, before, w, after, rfl, earlier, malformed⟩
      exact ⟨before, w, after, rfl, fun b member => (accepts b).2 (earlier b member),
        (misreads w).2 ⟨cause, malformed⟩⟩
  | _ => simp [IsListMisread, asList, unfit]

/-- What the codec makes of a document depends on its tree; it takes just the values that fit, and calls the
text malformed at just those that are misread. -/
structure Sorts {α : Type} (codec : Codec α) (tree : TreeReader α) (fits misread : Value → Prop) :
    Prop where
  reads : codec.ReadsTrees tree
  accepts : Accepts tree fits
  misreads : Misreads tree misread

theorem text_sorts : text.Sorts asText IsText fun _ => False :=
  ⟨text_readsTrees, accepts_asText, misreads_nothing blamesData_asText⟩

theorem bool_sorts : bool.Sorts asBool IsFlag fun _ => False :=
  ⟨bool_readsTrees, accepts_asBool, misreads_nothing blamesData_asBool⟩

theorem int64_sorts : int64.Sorts asInt64 IsInt64 fun _ => False :=
  ⟨int64_readsTrees, accepts_asInt64, misreads_nothing blamesData_asInt64⟩

theorem Sorts.list {codec : Codec α} (item : codec.Sorts tree fits misread) :
    (list codec).Sorts (asList tree) (IsListOf fits) (IsListMisread fits misread) :=
  ⟨list_readsTrees item.reads, accepts_asList item.accepts,
    misreads_asList item.accepts item.misreads⟩

end Codec

end Readers

/-! ### Records -/

/-- What a member of a name must hold, and what it may hold that is misread. -/
structure SortRule extends MemberRule where
  misread : Value → Prop

/-- The rule of a member whose values are never misread. -/
def MemberRule.plain (rule : MemberRule) : SortRule := ⟨rule, fun _ => False⟩

/-- The rules without what is misread. -/
def memberRules (rules : List SortRule) : List MemberRule := rules.map SortRule.toMemberRule

/-- The elements of an array are misread as fields: one of them is where those before it are taken, or there
are more than there are fields. -/
def ItemsMisread : List SortRule → List Value → Prop
  | [], items => items ≠ []
  | _ :: _, [] => False
  | rule :: rules, v :: items => rule.misread v ∨ rule.fits v ∧ ItemsMisread rules items

/-- The members of an object are misread: one of a known name is, which has not been met before, where those
before it are taken. -/
def MembersMisread (rules : List SortRule) (members : List (String × Value)) : Prop :=
  ∃ earlier, ∃ rule ∈ rules, ∃ v later, members = earlier ++ (rule.name, v) :: later ∧
    WellTyped (memberRules rules) earlier ∧ NoneRepeated (memberRules rules) earlier ∧
    held rule.name earlier = [] ∧ rule.misread v

/-- A record is misread in one of its two forms. -/
def IsRecordMisread (rules : List SortRule) (v : Value) : Prop :=
  (∃ members, v = .object members ∧ MembersMisread rules members) ∨
    ∃ items, v = .list items ∧ ItemsMisread rules items

/-- The rule of a member that holds a list of records. -/
def listRule (name : String) (optional : Bool) (rules : List SortRule) : SortRule :=
  ⟨⟨name, IsListOf (IsRecord (memberRules rules)), optional⟩,
    IsListMisread (IsRecord (memberRules rules)) (IsRecordMisread rules)⟩

namespace Fields

/-- Each field has a rule of its name, by which its codec sorts values; an empty list is taken as the value
that stands for its absence, if there is one. -/
inductive Sorts : {types : List Type} → Fields types → Readings types → List SortRule → Prop where
  | nil : Sorts .nil .nil []
  | cons {α : Type} {types : List Type} {name : String} {codec : Codec α} {absent : Option α}
      {rest : Fields types} {tree : TreeReader α} {trees : Readings types}
      {fits misread : Value → Prop} {rules : List SortRule} (sorts : codec.Sorts tree fits misread)
      (stands : ∀ x, absent = some x → tree (.list []) = .ok x) (others : Sorts rest trees rules) :
      Sorts (.cons name codec absent rest) (.cons tree trees)
        (⟨⟨name, fits, absent.isSome⟩, misread⟩ :: rules)

variable {types : List Type} {fields : Fields types} {trees : Readings types} {rules : List SortRule}

theorem Sorts.reads (sorts : fields.Sorts trees rules) : fields.ReadTrees trees := by
  induction sorts with
  | nil => exact .nil
  | cons first stands others ih => exact .cons first.reads ih

theorem Sorts.obeys (sorts : fields.Sorts trees rules) : fields.Obey trees (memberRules rules) := by
  induction sorts with
  | nil => exact .nil
  | cons first stands others ih => exact .cons first.accepts stands ih

theorem Sorts.ofItems (sorts : fields.Sorts trees rules) (expected : String) (count : Nat)
    (items : List Value) :
    ItemsMisread rules items ↔
      ∃ cause, fields.ofItems expected count trees items = .error (.malformed cause) := by
  induction sorts generalizing count items with
  | nil =>
    cases items with
    | nil => exact iff_of_false (fun some => some rfl) nofun
    | cons v items => exact iff_of_true (List.cons_ne_nil v items) ⟨_, rfl⟩
  | @cons α types name codec absent rest tree trees fits misread rules first stands others ih =>
    cases items with
    | nil =>
      exact iff_of_false id fun ⟨cause, malformed⟩ => blamesData_absentees _ expected count cause malformed
    | cons v items =>
      simp only [ItemsMisread, ih (count + 1) items, first.misreads v]
      constructor
      · rintro (⟨cause, malformed⟩ | ⟨fit, cause, malformed⟩)
        · exact ⟨cause, bind_eq_error_iff.2 (.inl malformed)⟩
        · obtain ⟨x, read⟩ := (first.accepts v).1 fit
          exact ⟨cause, bind_eq_error_iff.2 (.inr ⟨x, read, bind_eq_error_iff.2 (.inl malformed)⟩)⟩
      · rintro ⟨cause, malformed⟩
        obtain malformed | ⟨x, read, malformed⟩ := bind_eq_error_iff.1 malformed
        · exact .inl ⟨cause, malformed⟩
        · obtain malformed | ⟨values, -, other⟩ := bind_eq_error_iff.1 malformed
          · exact .inr ⟨(first.accepts v).2 ⟨x, read⟩, cause, malformed⟩
          · cases other

/-! ### Members up to one that is misread -/

/-- Values go into an empty slot just if there is at most one, and it fits. -/
theorem exists_filled_iff {α : Type} (name : String) {tree : TreeReader α} {fits : Value → Prop}
    (accepts : Accepts tree fits) (values : List Value) :
    (∃ slot, values.foldlM (fun slot v => fill name tree v slot) none = .ok slot) ↔
      (∀ v ∈ values, fits v) ∧ values.length ≤ 1 := by
  match values with
  | [] => simp [pure, Except.pure]
  | [v] =>
    have one : fits v ↔ ∃ x, tree v = .ok x := accepts v
    cases read : tree v <;> simp [fill, read, one, bind, Except.bind, Except.map, pure, Except.pure]
  | v :: w :: more =>
    cases read : tree v <;> simp [fill, read, unfit, bind, Except.bind, Except.map]

theorem slot_eq_none_iff {α : Type} {name : String} {tree : TreeReader α} {values : List Value}
    {slot : Option α} (filled : values.foldlM (fun slot v => fill name tree v slot) none = .ok slot) :
    slot = none ↔ values = [] := by
  match values with
  | [] => simpa [pure, Except.pure, eq_comm] using filled
  | [v] =>
    cases read : tree v <;>
      simp [fill, read, bind, Except.bind, Except.map, pure, Except.pure] at filled
    simp [← filled]
  | v :: w :: more =>
    cases read : tree v <;> simp [fill, read, unfit, bind, Except.bind, Except.map] at filled

/-- All members can be put into slots just if those of known names fit, and none is repeated. -/
theorem Sorts.exists_placed_iff (sorts : fields.Sorts trees rules)
    (distinct : ((memberRules rules).map MemberRule.name).Nodup) (members : List (String × Value)) :
    (∃ slots, members.foldlM (fun slots m => fields.place m.1 m.2 trees slots) (Slots.empty types) =
        .ok slots) ↔
      WellTyped (memberRules rules) members ∧ NoneRepeated (memberRules rules) members := by
  induction sorts with
  | nil =>
    exact iff_of_true ⟨(), foldlM_place_nil members⟩
      ⟨List.forall_mem_nil _, List.forall_mem_nil _⟩
  | @cons α types name codec absent rest tree trees fits misread rules first stands others ih =>
    have fresh := fresh_of_nodup others.obeys distinct
    have own := exists_filled_iff name first.accepts (held name members)
    have later := ih (List.nodup_cons.1 distinct).2
    constructor
    · rintro ⟨⟨last, ends⟩, folded⟩
      obtain ⟨filled, placed⟩ := (foldlM_place_cons fresh tree trees members none last
        (Slots.empty types) ends).1 folded
      obtain ⟨typed, once⟩ := own.1 ⟨last, filled⟩
      obtain ⟨all_typed, all_once⟩ := later.1 ⟨ends, placed⟩
      exact ⟨List.forall_mem_cons.2 ⟨typed, all_typed⟩, List.forall_mem_cons.2 ⟨once, all_once⟩⟩
    · rintro ⟨typed, once⟩
      obtain ⟨first_typed, typed⟩ := List.forall_mem_cons.1 typed
      obtain ⟨first_once, once⟩ := List.forall_mem_cons.1 once
      obtain ⟨last, filled⟩ := own.2 ⟨first_typed, first_once⟩
      obtain ⟨ends, placed⟩ := later.2 ⟨typed, once⟩
      exact ⟨(last, ends), (foldlM_place_cons fresh tree trees members none last
        (Slots.empty types) ends).2 ⟨filled, placed⟩⟩

/-- A member is misread just if one of the fields, whose slot is empty yet, has its name and misreads its
value. -/
theorem Sorts.place_iff (sorts : fields.Sorts trees rules)
    (distinct : ((memberRules rules).map MemberRule.name).Nodup) {earlier : List (String × Value)}
    {slots : Slots types}
    (folded : earlier.foldlM (fun slots m => fields.place m.1 m.2 trees slots) (Slots.empty types) =
      .ok slots) (key : String) (v : Value) :
    (∃ cause, fields.place key v trees slots = .error (.malformed cause)) ↔
      ∃ rule ∈ rules, key = rule.name ∧ held rule.name earlier = [] ∧ rule.misread v := by
  induction sorts with
  | nil => simp [place]
  | @cons α types name codec absent rest tree trees fits misread rules first stands others ih =>
    have fresh := fresh_of_nodup others.obeys distinct
    obtain ⟨last, ends⟩ := slots
    obtain ⟨filled, placed⟩ := (foldlM_place_cons fresh tree trees earlier none last
      (Slots.empty types) ends).1 folded
    have empty := slot_eq_none_iff filled
    refine Iff.trans ?_ (List.exists_mem_cons_iff _ _ _).symm
    by_cases same : key = name
    · subst same
      have foreign : ¬∃ rule ∈ rules, key = rule.name ∧ held rule.name earlier = [] ∧
          rule.misread v := by
        rintro ⟨rule, member, rfl, -⟩
        rw [others.obeys.names, memberRules, List.map_map] at fresh
        exact fresh (List.mem_map.2 ⟨rule, member, rfl⟩)
      simp only [place, ↓reduceIte, true_and, foreign, or_false]
      cases last with
      | some found =>
        have met : held key earlier ≠ [] := fun nothing => Option.some_ne_none found (empty.2 nothing)
        simp [fill, unfit, Except.map, met]
      | none =>
        simp only [fill, empty.1 rfl, true_and]
        exact (exists_congr fun _ => map_eq_error_iff.trans map_eq_error_iff).trans
          (first.misreads v).symm
    · simp only [place, same, ↓reduceIte, false_and, false_or]
      exact (exists_congr fun _ => map_eq_error_iff).trans (ih (List.nodup_cons.1 distinct).2 placed)

theorem Sorts.ofMembers (sorts : fields.Sorts trees rules)
    (distinct : ((memberRules rules).map MemberRule.name).Nodup) (members : List (String × Value)) :
    MembersMisread rules members ↔
      ∃ cause, fields.ofMembers trees members = .error (.malformed cause) := by
  constructor
  · rintro ⟨earlier, rule, known, v, later, rfl, typed, once, unmet, wrong⟩
    obtain ⟨slots, folded⟩ := (sorts.exists_placed_iff distinct earlier).2 ⟨typed, once⟩
    obtain ⟨cause, malformed⟩ :=
      (sorts.place_iff distinct folded rule.name v).2 ⟨rule, known, rfl, unmet, wrong⟩
    exact ⟨cause, bind_eq_error_iff.2 (.inl (foldlM_eq_error_iff.2
      ⟨earlier, (rule.name, v), later, slots, rfl, folded, malformed⟩))⟩
  · rintro ⟨cause, malformed⟩
    obtain malformed | ⟨slots, -, malformed⟩ := bind_eq_error_iff.1 malformed
    · obtain ⟨earlier, ⟨key, v⟩, later, slots, rfl, folded, malformed⟩ :=
        foldlM_eq_error_iff.1 malformed
      obtain ⟨rule, known, rfl, unmet, wrong⟩ :=
        (sorts.place_iff distinct folded key v).1 ⟨cause, malformed⟩
      obtain ⟨typed, once⟩ := (sorts.exists_placed_iff distinct earlier).1 ⟨slots, folded⟩
      exact ⟨earlier, rule, known, v, later, rfl, typed, once, unmet, wrong⟩
    · exact absurd malformed (blamesData_close fields slots cause)

end Fields

/-- A record sorts values by the rules of its fields. -/
theorem Fields.Sorts.record {types : List Type} {fields : Fields types} {trees : Readings types}
    {rules : List SortRule} {ρ : Type} (sorts : fields.Sorts trees rules)
    (distinct : ((memberRules rules).map MemberRule.name).Nodup) (name : RecordName)
    (assemble : Tuple types → ρ) (parts : ρ → Tuple types) :
    (Codec.record name fields assemble parts).Sorts (Codec.asRecord name fields trees assemble)
      (IsRecord (memberRules rules)) (IsRecordMisread rules) := by
  refine ⟨Codec.record_readsTrees sorts.reads assemble parts,
    accepts_asRecord sorts.obeys distinct assemble, Misreads.map (fun v => ?_) assemble⟩
  cases v with
  | object members =>
    rw [Codec.asFields, ← sorts.ofMembers distinct]
    constructor
    · rintro (⟨_, same, wrong⟩ | ⟨_, other, -⟩)
      · cases same
        exact wrong
      · cases other
    · exact fun wrong => .inl ⟨members, rfl, wrong⟩
  | list items =>
    rw [Codec.asFields, ← sorts.ofItems]
    constructor
    · rintro (⟨_, other, -⟩ | ⟨_, same, wrong⟩)
      · cases other
      · cases same
        exact wrong
    · exact fun wrong => .inr ⟨items, rfl, wrong⟩
  | _ => simp [IsRecordMisread, Codec.asFields, unfit]

/-! ### Rules that admit nothing that is misread -/

/-- The rules of the same members, each of which admits only what is not misread. -/
inductive Admissible : List SortRule → List MemberRule → Prop where
  | nil : Admissible [] []
  | cons {name : String} {fits admits misread : Value → Prop} {optional : Bool}
      {rules : List SortRule} {loose : List MemberRule} (sound : ∀ v, admits v → ¬misread v)
      (others : Admissible rules loose) :
      Admissible (⟨⟨name, fits, optional⟩, misread⟩ :: rules) (⟨name, admits, optional⟩ :: loose)

theorem not_isListMisread {fits loose misread : Value → Prop} (sound : ∀ v, loose v → ¬misread v)
    (v : Value) (typed : IsListOf loose v) : ¬IsListMisread fits misread v := by
  obtain ⟨items, rfl, typed⟩ := typed
  rintro ⟨before, w, after, same, -, wrong⟩
  cases same
  exact sound w (typed w (List.mem_append_right before List.mem_cons_self)) wrong

section Admissible

variable {rules : List SortRule} {loose : List MemberRule}

theorem Admissible.exists_rule (admissible : Admissible rules loose) {rule : SortRule}
    (known : rule ∈ rules) :
    ∃ other ∈ loose, other.name = rule.name ∧ ∀ v, other.fits v → ¬rule.misread v := by
  induction admissible with
  | nil => cases known
  | cons sound others ih =>
    obtain rfl | known := List.mem_cons.1 known
    · exact ⟨_, List.mem_cons_self, rfl, sound⟩
    · obtain ⟨other, listed, found⟩ := ih known
      exact ⟨other, List.mem_cons_of_mem _ listed, found⟩

theorem Admissible.not_itemsMisread (admissible : Admissible rules loose) {items : List Value}
    (ordered : InOrder loose items) : ¬ItemsMisread rules items := by
  induction admissible generalizing items with
  | nil => exact fun some_left => some_left ordered
  | cons sound others ih =>
    cases items with
    | nil => exact id
    | cons v items =>
      rintro (wrong | ⟨-, wrong⟩)
      · exact sound v ordered.1 wrong
      · exact ih ordered.2 wrong

theorem Admissible.not_membersMisread (admissible : Admissible rules loose)
    {members : List (String × Value)} (typed : WellTyped loose members) :
    ¬MembersMisread rules members := by
  rintro ⟨earlier, rule, known, v, later, rfl, -, -, -, wrong⟩
  obtain ⟨other, listed, same, sound⟩ := admissible.exists_rule known
  refine sound v (typed other listed v (mem_held.2 ?_)) wrong
  rw [same]
  exact List.mem_append_right earlier List.mem_cons_self

theorem Admissible.not_isRecordMisread (admissible : Admissible rules loose) (v : Value)
    (typed : IsRecord loose v) : ¬IsRecordMisread rules v := by
  obtain ⟨members, rfl, typed, -⟩ | ⟨items, rfl, ordered⟩ := typed
  · rintro (⟨_, same, wrong⟩ | ⟨_, other, -⟩)
    · cases same
      exact admissible.not_membersMisread typed wrong
    · cases other
  · rintro (⟨_, other, -⟩ | ⟨_, same, wrong⟩)
    · cases other
    · cases same
      exact admissible.not_itemsMisread ordered wrong

/-- Nothing that is named is misread. -/
theorem not_isNameMisread {names : List String} (v : Value) (typed : IsNamed names v) :
    ¬IsNameMisread names v := by
  obtain ⟨name, -, rfl | rfl⟩ := typed
  · exact id
  · exact fun wrong => wrong.2.2 rfl

theorem Admissible.plain (admissible : Admissible rules loose) {name : String}
    {fits admits : Value → Prop} {optional : Bool} :
    Admissible (MemberRule.plain ⟨name, fits, optional⟩ :: rules) (⟨name, admits, optional⟩ :: loose) :=
  .cons (fun _ _ => id) admissible

theorem Admissible.listRule (admissible : Admissible rules loose) {others : List SortRule}
    {more : List MemberRule} (behind : Admissible others more) {name : String} {optional : Bool} :
    Admissible (listRule name optional rules :: others)
      (⟨name, IsListOf (IsRecord loose), optional⟩ :: more) :=
  .cons (not_isListMisread admissible.not_isRecordMisread) behind

theorem Fields.Sorts.spare {types : List Type} {fields : Fields types} {trees : Readings types}
    (sorts : fields.Sorts trees rules) (admissible : Admissible rules loose) :
    fields.Spare trees loose := by
  induction sorts generalizing loose with
  | nil =>
    cases admissible
    exact .nil
  | cons first stands others ih =>
    cases admissible with
    | cons sound admissible =>
      exact .cons (fun v fit => first.misreads.blamesData (sound v fit)) (ih admissible)

end Admissible

/-! ### Rules by which no member is misread -/

theorem itemsMisread_plain_iff {rules : List MemberRule} {items : List Value} :
    ItemsMisread (rules.map MemberRule.plain) items ↔ ∃ front extra, items = front ++ extra ∧
      extra ≠ [] ∧ List.Forall₂ (fun rule v => rule.fits v) rules front := by
  induction rules generalizing items with
  | nil =>
    constructor
    · exact fun some_left => ⟨[], items, rfl, some_left, .nil⟩
    · rintro ⟨_, extra, rfl, some_left, ⟨⟩⟩
      exact some_left
  | cons rule rules ih =>
    cases items with
    | nil =>
      refine iff_of_false id ?_
      rintro ⟨front, extra, same, some_left, -⟩
      exact some_left (List.append_eq_nil_iff.1 same.symm).2
    | cons v items =>
      refine Iff.trans (or_iff_right id) (Iff.trans (and_congr_right fun _ => ih) ?_)
      constructor
      · rintro ⟨fit, front, extra, rfl, some_left, fits⟩
        exact ⟨v :: front, extra, rfl, some_left, .cons fit fits⟩
      · rintro ⟨_, extra, same, some_left, fits⟩
        cases fits with
        | cons fit fits =>
          cases same
          exact ⟨fit, _, extra, rfl, some_left, fits⟩

/-- If no member is misread, a record is only as an array of values that fit with others behind them. -/
theorem isRecordMisread_plain_iff {rules : List MemberRule} {v : Value} :
    IsRecordMisread (rules.map MemberRule.plain) v ↔ ∃ front extra, v = .list (front ++ extra) ∧
      extra ≠ [] ∧ List.Forall₂ (fun rule w => rule.fits w) rules front := by
  constructor
  · rintro (⟨members, rfl, earlier, rule, known, v, later, -, -, -, -, wrong⟩ | ⟨items, rfl, wrong⟩)
    · obtain ⟨plain, -, rfl⟩ := List.mem_map.1 known
      exact wrong.elim
    · obtain ⟨front, extra, rfl, behind⟩ := itemsMisread_plain_iff.1 wrong
      exact ⟨front, extra, rfl, behind⟩
  · rintro ⟨front, extra, rfl, behind⟩
    exact .inr ⟨_, rfl, itemsMisread_plain_iff.2 ⟨front, extra, rfl, behind⟩⟩

end RunMetrics.Json

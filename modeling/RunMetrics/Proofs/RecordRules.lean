import RunMetrics.Proofs.RecordTrees

/-!
What a record asks of the members of an object. Each of its fields has a rule: what a member of its name
must hold, and whether there may be none. The fields are found just if every rule is met by the values that
the members of its name hold, wherever they stand and whatever stands between them; then the same values in
an array, in the order of the fields, make the same record.
-/

set_option autoImplicit false

namespace RunMetrics.Json

/-! ### Outcomes -/

section Outcomes

variable {α β : Type}

theorem bind_eq_ok_iff {outcome : Except Fault α} {next : α → Except Fault β} {y : β} :
    (outcome >>= next) = .ok y ↔ ∃ x, outcome = .ok x ∧ next x = .ok y := by
  cases outcome <;> simp [Bind.bind, Except.bind]

theorem map_eq_ok_iff {outcome : Except Fault α} {f : α → β} {y : β} :
    outcome.map f = .ok y ↔ ∃ x, outcome = .ok x ∧ f x = y := by
  cases outcome <;> simp [Except.map]

theorem exists_map_eq_ok_iff {outcome : Except Fault α} {f : α → β} :
    (∃ y, outcome.map f = .ok y) ↔ ∃ x, outcome = .ok x := by
  cases outcome <;> simp [Except.map]

theorem exists_mapM_eq_ok_iff {f : α → Except Fault β} {xs : List α} :
    (∃ ys, xs.mapM f = .ok ys) ↔ ∀ x ∈ xs, ∃ y, f x = .ok y := by
  induction xs with
  | nil => exact iff_of_true ⟨[], rfl⟩ (List.forall_mem_nil _)
  | cons x xs ih =>
    rw [List.forall_mem_cons, ← ih, List.mapM_cons]
    constructor
    · rintro ⟨ys, read⟩
      obtain ⟨y, first, read⟩ := bind_eq_ok_iff.1 read
      obtain ⟨ys, others, -⟩ := bind_eq_ok_iff.1 read
      exact ⟨⟨y, first⟩, ys, others⟩
    · rintro ⟨⟨y, first⟩, ys, others⟩
      exact ⟨y :: ys, bind_eq_ok_iff.2 ⟨y, first, bind_eq_ok_iff.2 ⟨ys, others, rfl⟩⟩⟩

end Outcomes

/-! ### Blame -/

/-- The outcome does not call the text malformed. -/
def BlamesData {α : Type} (outcome : Except Fault α) : Prop :=
  ∀ cause, outcome ≠ .error (.malformed cause)

section Blame

variable {α β : Type}

theorem blamesData_ok (x : α) : BlamesData (.ok x) := nofun

theorem blamesData_unfit (cause : Misfit) : BlamesData (unfit cause : Except Fault α) := nofun

theorem BlamesData.bind {outcome : Except Fault α} {next : α → Except Fault β}
    (first : BlamesData outcome) (others : ∀ x, outcome = .ok x → BlamesData (next x)) :
    BlamesData (outcome >>= next) := by
  cases outcome with
  | error fault => exact fun cause same => first cause (congrArg Except.error (Except.error.inj same))
  | ok x => exact others x rfl

theorem BlamesData.map {outcome : Except Fault α} (first : BlamesData outcome) (f : α → β) :
    BlamesData (outcome.map f) := by
  cases outcome with
  | error fault => exact fun cause same => first cause (congrArg Except.error (Except.error.inj same))
  | ok x => exact blamesData_ok (f x)

theorem blamesData_foldlM {step : β → α → Except Fault β} {xs : List α}
    (each : ∀ x ∈ xs, ∀ state, BlamesData (step state x)) (state : β) :
    BlamesData (xs.foldlM step state) := by
  induction xs generalizing state with
  | nil => exact blamesData_ok state
  | cons x xs ih =>
    rw [List.foldlM_cons]
    exact (each x List.mem_cons_self state).bind fun next _ =>
      ih (fun other member => each other (List.mem_cons_of_mem x member)) next

end Blame

/-! ### Rules -/

/-- What a member of a name must hold, and whether it may be left out. -/
structure MemberRule where
  name : String
  fits : Value → Prop
  optional : Bool

/-- The values that the members of a name hold. -/
def held (name : String) (members : List (String × Value)) : List Value :=
  (members.filter fun m => m.1 = name).map Prod.snd

theorem mem_held {name : String} {v : Value} {members : List (String × Value)} :
    v ∈ held name members ↔ (name, v) ∈ members := by
  simp [held]

theorem held_cons_self (m : String × Value) (members : List (String × Value)) :
    held m.1 (m :: members) = m.2 :: held m.1 members := by
  simp only [held, decide_true, List.filter_cons_of_pos, List.map_cons]

theorem held_cons_of_ne {name : String} {m : String × Value} (apart : m.1 ≠ name)
    (members : List (String × Value)) : held name (m :: members) = held name members := by
  simp only [held, apart, decide_false, Bool.false_eq_true, not_false_eq_true,
    List.filter_cons_of_neg]

section Rules

variable (rules : List MemberRule) (members : List (String × Value))

/-- Every member of a known name holds a value of the kind that belongs there. -/
def WellTyped : Prop := ∀ rule ∈ rules, ∀ v ∈ held rule.name members, rule.fits v

def NoneRepeated : Prop := ∀ rule ∈ rules, (held rule.name members).length ≤ 1

def NoneMissing : Prop :=
  ∀ rule ∈ rules, rule.optional = false → held rule.name members ≠ []

/-- The values of the known members, in the order of the rules; an empty list stands for a member that
was left out. -/
def arranged : List Value := rules.map fun rule => (held rule.name members).headD (.list [])

end Rules

/-- The values stand for the members in the order of the rules. Those behind the last value must be
optional. -/
def InOrder : List MemberRule → List Value → Prop
  | [], items => items = []
  | rule :: rules, [] => ∀ other ∈ rule :: rules, other.optional = true
  | rule :: rules, v :: items => rule.fits v ∧ InOrder rules items

/-- The value is a record with the rules, in one of its two forms. -/
def IsRecord (rules : List MemberRule) (v : Value) : Prop :=
  (∃ members, v = .object members ∧ WellTyped rules members ∧ NoneRepeated rules members ∧
    NoneMissing rules members) ∨
  ∃ items, v = .list items ∧ InOrder rules items

/-- The values of one name meet a rule. -/
def MemberRule.Met (rule : MemberRule) (values : List Value) : Prop :=
  (∃ v, values = [v] ∧ rule.fits v) ∨ (values = [] ∧ rule.optional = true)

theorem MemberRule.met_iff (rule : MemberRule) (values : List Value) :
    rule.Met values ↔ (∀ v ∈ values, rule.fits v) ∧ values.length ≤ 1 ∧
      (rule.optional = false → values ≠ []) := by
  match values with
  | [] => simp [Met]
  | [v] => simp [Met]
  | v :: w :: more => simp [Met]

theorem forall_met_iff (rules : List MemberRule) (members : List (String × Value)) :
    (∀ rule ∈ rules, rule.Met (held rule.name members)) ↔
      WellTyped rules members ∧ NoneRepeated rules members ∧ NoneMissing rules members := by
  simp only [MemberRule.met_iff, WellTyped, NoneRepeated, NoneMissing]
  exact ⟨fun met => ⟨fun rule member => (met rule member).1, fun rule member => (met rule member).2.1,
    fun rule member => (met rule member).2.2⟩, fun each rule member =>
      ⟨each.1 rule member, each.2.1 rule member, each.2.2 rule member⟩⟩

/-- The function of trees makes something of just the values that fit. -/
def Accepts {α : Type} (tree : TreeReader α) (fits : Value → Prop) : Prop :=
  ∀ v, fits v ↔ ∃ x, tree v = .ok x

theorem Accepts.blamesData {α : Type} {tree : TreeReader α} {fits : Value → Prop}
    (accepts : Accepts tree fits) {v : Value} (fit : fits v) : BlamesData (tree v) := by
  obtain ⟨x, read⟩ := (accepts v).1 fit
  rw [read]
  exact blamesData_ok x

/-! ### Fields -/

namespace Fields

/-- Each field has a rule of its name. What fits is accepted by the function for the field, and an empty
list is taken as the value that stands for its absence, if there is one. -/
inductive Obey : {types : List Type} → Fields types → Readings types → List MemberRule → Prop where
  | nil : Obey .nil .nil []
  | cons {α : Type} {types : List Type} {name : String} {codec : Codec α} {absent : Option α}
      {rest : Fields types} {tree : TreeReader α} {trees : Readings types} {fits : Value → Prop}
      {rules : List MemberRule} (accepts : Accepts tree fits)
      (stands : ∀ x, absent = some x → tree (.list []) = .ok x) (others : Obey rest trees rules) :
      Obey (.cons name codec absent rest) (.cons tree trees) (⟨name, fits, absent.isSome⟩ :: rules)

/-- Each field has a rule of its name, and what fits is never called malformed. -/
inductive Spare : {types : List Type} → Fields types → Readings types → List MemberRule →
    Prop where
  | nil : Spare .nil .nil []
  | cons {α : Type} {types : List Type} {name : String} {codec : Codec α} {absent : Option α}
      {rest : Fields types} {tree : TreeReader α} {trees : Readings types} {fits : Value → Prop}
      {rules : List MemberRule} (spares : ∀ v, fits v → BlamesData (tree v))
      (others : Spare rest trees rules) :
      Spare (.cons name codec absent rest) (.cons tree trees) (⟨name, fits, absent.isSome⟩ :: rules)

variable {types : List Type} {fields : Fields types} {trees : Readings types}
  {rules : List MemberRule}

theorem Obey.names (obeys : fields.Obey trees rules) :
    fields.names = rules.map MemberRule.name := by
  induction obeys with
  | nil => rfl
  | cons accepts stands others ih => exact congrArg _ ih

theorem Obey.spare (obeys : fields.Obey trees rules) : fields.Spare trees rules := by
  induction obeys with
  | nil => exact .nil
  | cons accepts stands others ih => exact .cons (fun v => accepts.blamesData) ih

/-! ### One field among the members -/

theorem place_foreign {key : String} (foreign : key ∉ fields.names) (v : Value)
    (slots : Slots types) : fields.place key v trees slots = .ok slots := by
  induction fields with
  | nil => rfl
  | cons name codec absent rest ih =>
    obtain _ | ⟨tree, trees⟩ := trees
    obtain ⟨slot, slots⟩ := slots
    obtain ⟨other, foreign⟩ := not_or.1 (List.mem_cons.not.1 foreign)
    simp only [place, other, ↓reduceIte, ih foreign]
    rfl

/-- The value of a field, from all that the members of its name hold. -/
def settle {α : Type} (name : String) (tree : TreeReader α) (absent : Option α)
    (values : List Value) : Except Fault α := do
  let slot ← values.foldlM (fun slot v => fill name tree v slot) none
  fallback name slot absent

theorem settle_eq_ok {α : Type} {name : String} {tree : TreeReader α} {absent : Option α}
    {values : List Value} {x : α} :
    settle name tree absent values = .ok x ↔
      (∃ v, values = [v] ∧ tree v = .ok x) ∨ (values = [] ∧ absent = some x) := by
  match values with
  | [] => cases absent <;> simp [settle, fallback, unfit, bind, Except.bind, pure, Except.pure]
  | [v] =>
    cases read : tree v <;>
      simp [settle, fallback, fill, read, bind, Except.bind, Except.map, pure, Except.pure]
  | v :: w :: more =>
    cases read : tree v <;> simp [settle, fill, read, unfit, bind, Except.bind, Except.map]

/-- The members of a foreign name and those of the field's own go through the slots apart. -/
theorem foldlM_place_cons {α : Type} {name : String} {codec : Codec α} {absent : Option α}
    {rest : Fields types} (fresh : name ∉ rest.names) (tree : TreeReader α)
    (trees : Readings types) (members : List (String × Value)) (slot last : Option α)
    (slots ends : Slots types) :
    members.foldlM (fun slots m => (cons name codec absent rest).place m.1 m.2 (.cons tree trees) slots)
        ((slot, slots) : Slots (α :: types)) = .ok (last, ends) ↔
      (held name members).foldlM (fun slot v => fill name tree v slot) slot = .ok last ∧
        members.foldlM (fun slots m => rest.place m.1 m.2 trees slots) slots = .ok ends := by
  induction members generalizing slot slots with
  | nil =>
    constructor
    · intro same
      obtain ⟨rfl, rfl⟩ := Prod.mk.inj (Except.ok.inj same)
      exact ⟨rfl, rfl⟩
    · rintro ⟨same, others⟩
      cases same
      cases others
      rfl
  | cons m members ih =>
    rw [List.foldlM_cons]
    change ((cons name codec absent rest).place m.1 m.2 (.cons tree trees) (slot, slots) >>=
      fun next => members.foldlM _ next) = _ ↔ _
    by_cases same : m.1 = name
    · subst same
      rw [held_cons_self, List.foldlM_cons, place_foreign fresh]
      simp only [place, ↓reduceIte]
      cases filled : fill m.1 tree m.2 slot with
      | error fault => simp [bind, Except.bind, Except.map]
      | ok next => exact ih next slots
    · rw [held_cons_of_ne same]
      simp only [place, same, ↓reduceIte]
      cases placed : rest.place m.1 m.2 trees slots with
      | error fault => simp [bind, Except.bind, Except.map]
      | ok next => exact ih slot next

/-- The first field is settled by the members of its name, and the others as if it were not there. -/
theorem ofMembers_cons_eq_ok {α : Type} {name : String} {codec : Codec α} {absent : Option α}
    {rest : Fields types} (fresh : name ∉ rest.names) {tree : TreeReader α}
    {trees : Readings types} {members : List (String × Value)} {x : α} {values : Tuple types} :
    (cons name codec absent rest).ofMembers (.cons tree trees) members = .ok (x, values) ↔
      settle name tree absent (held name members) = .ok x ∧
        rest.ofMembers trees members = .ok values := by
  refine Iff.trans bind_eq_ok_iff ?_
  rw [ofMembers, settle, bind_eq_ok_iff, bind_eq_ok_iff]
  constructor
  · rintro ⟨⟨last, ends⟩, folded, closed⟩
    obtain ⟨own, others⟩ := (foldlM_place_cons fresh tree trees members none last
      (Slots.empty types) ends).1 folded
    obtain ⟨y, found, closed⟩ := bind_eq_ok_iff.1 closed
    obtain ⟨more, rest_closed, same⟩ := bind_eq_ok_iff.1 closed
    obtain ⟨rfl, rfl⟩ := Prod.mk.inj (Except.ok.inj same)
    exact ⟨⟨last, own, found⟩, ends, others, rest_closed⟩
  · rintro ⟨⟨last, own, found⟩, ends, others, closed⟩
    refine ⟨(last, ends), (foldlM_place_cons fresh tree trees members none last
      (Slots.empty types) ends).2 ⟨own, others⟩, ?_⟩
    exact bind_eq_ok_iff.2 ⟨x, found, bind_eq_ok_iff.2 ⟨values, closed, rfl⟩⟩

theorem foldlM_place_nil (members : List (String × Value)) :
    members.foldlM (fun slots m => Fields.nil.place m.1 m.2 .nil slots) (Slots.empty []) =
      .ok () := by
  induction members with
  | nil => rfl
  | cons m members ih => exact ih

theorem ofMembers_nil (members : List (String × Value)) :
    Fields.nil.ofMembers .nil members = .ok () := by
  rw [ofMembers, foldlM_place_nil]
  rfl

/-! ### All fields -/

theorem fresh_of_nodup {name : String} (obeys : fields.Obey trees rules)
    (distinct : (name :: rules.map MemberRule.name).Nodup) : name ∉ fields.names :=
  obeys.names ▸ (List.nodup_cons.1 distinct).1

/-- The fields are found in an object just if every rule is met. -/
theorem Obey.ofMembers_iff (obeys : fields.Obey trees rules)
    (distinct : (rules.map MemberRule.name).Nodup) (members : List (String × Value)) :
    (∃ values, fields.ofMembers trees members = .ok values) ↔
      ∀ rule ∈ rules, rule.Met (held rule.name members) := by
  induction obeys with
  | nil => exact iff_of_true ⟨(), ofMembers_nil members⟩ (List.forall_mem_nil _)
  | @cons α types name codec absent rest tree trees fits rules accepts stands others ih =>
    have fresh := fresh_of_nodup others distinct
    rw [List.forall_mem_cons, ← ih (List.nodup_cons.1 distinct).2]
    constructor
    · rintro ⟨⟨x, values⟩, found⟩
      obtain ⟨own, found⟩ := (ofMembers_cons_eq_ok fresh).1 found
      refine ⟨?_, values, found⟩
      obtain ⟨v, one, read⟩ | ⟨none, absence⟩ := settle_eq_ok.1 own
      · exact .inl ⟨v, one, (accepts v).2 ⟨x, read⟩⟩
      · exact .inr ⟨none, Option.isSome_iff_exists.2 ⟨x, absence⟩⟩
    · rintro ⟨met, values, found⟩
      obtain ⟨x, own⟩ : ∃ x, settle name tree absent (held name members) = .ok x := by
        obtain ⟨v, one, fit⟩ | ⟨none, absence⟩ := met
        · obtain ⟨x, read⟩ := (accepts v).1 fit
          exact ⟨x, settle_eq_ok.2 (.inl ⟨v, one, read⟩)⟩
        · obtain ⟨x, absence⟩ := Option.isSome_iff_exists.1 absence
          exact ⟨x, settle_eq_ok.2 (.inr ⟨none, absence⟩)⟩
      exact ⟨(x, values), (ofMembers_cons_eq_ok fresh).2 ⟨own, found⟩⟩

/-- Only the values of known members count. -/
theorem Obey.ofMembers_congr (obeys : fields.Obey trees rules)
    (distinct : (rules.map MemberRule.name).Nodup) {members others : List (String × Value)}
    (same : ∀ rule ∈ rules, held rule.name others = held rule.name members) {values : Tuple types}
    (found : fields.ofMembers trees members = .ok values) :
    fields.ofMembers trees others = .ok values := by
  induction obeys with
  | nil => exact ofMembers_nil others
  | cons accepts stands obeys ih =>
    obtain ⟨x, values⟩ := values
    have fresh := fresh_of_nodup obeys distinct
    obtain ⟨first, same⟩ := List.forall_mem_cons.1 same
    obtain ⟨own, found⟩ := (ofMembers_cons_eq_ok fresh).1 found
    exact (ofMembers_cons_eq_ok fresh).2
      ⟨first.symm ▸ own, ih (List.nodup_cons.1 distinct).2 same found⟩

/-- The values of the known members make the same of an array. -/
theorem Obey.ofItems_arranged (obeys : fields.Obey trees rules)
    (distinct : (rules.map MemberRule.name).Nodup) (expected : String) (count : Nat)
    {members : List (String × Value)} {values : Tuple types}
    (found : fields.ofMembers trees members = .ok values) :
    fields.ofItems expected count trees (arranged rules members) = .ok values := by
  induction obeys generalizing count with
  | nil => rfl
  | @cons α types name codec absent rest tree trees fits rules accepts stands obeys ih =>
    obtain ⟨x, values⟩ := values
    have fresh := fresh_of_nodup obeys distinct
    obtain ⟨own, found⟩ := (ofMembers_cons_eq_ok fresh).1 found
    have read : tree ((held name members).headD (.list [])) = .ok x := by
      obtain ⟨v, one, read⟩ | ⟨none, absence⟩ := settle_eq_ok.1 own
      · rw [one]
        exact read
      · rw [none]
        exact stands x absence
    exact bind_eq_ok_iff.2 ⟨x, read, bind_eq_ok_iff.2
      ⟨values, ih (List.nodup_cons.1 distinct).2 (count + 1) found, rfl⟩⟩

theorem Obey.absentees_iff (obeys : fields.Obey trees rules) (expected : String) (count : Nat) :
    (∃ values, fields.absentees expected count = .ok values) ↔
      ∀ rule ∈ rules, rule.optional = true := by
  induction obeys generalizing count with
  | nil => exact iff_of_true ⟨(), rfl⟩ (List.forall_mem_nil _)
  | @cons α types name codec absent rest tree trees fits rules accepts stands obeys ih =>
    rw [List.forall_mem_cons, ← ih (count + 1)]
    cases absent with
    | none => simp [absentees, unfit]
    | some x =>
      constructor
      · rintro ⟨⟨y, values⟩, found⟩
        obtain ⟨values, found, -⟩ := bind_eq_ok_iff.1 found
        exact ⟨rfl, values, found⟩
      · rintro ⟨-, values, found⟩
        exact ⟨(x, values), bind_eq_ok_iff.2 ⟨values, found, rfl⟩⟩

/-- The fields are found in an array just if its elements stand for them in order. -/
theorem Obey.ofItems_iff (obeys : fields.Obey trees rules) (expected : String) (count : Nat)
    (items : List Value) :
    (∃ values, fields.ofItems expected count trees items = .ok values) ↔ InOrder rules items := by
  induction obeys generalizing count items with
  | nil =>
    cases items with
    | nil => exact iff_of_true ⟨(), rfl⟩ rfl
    | cons v items => simp [ofItems, malformed, InOrder]
  | @cons α types name codec absent rest tree trees fits rules accepts stands obeys ih =>
    cases items with
    | nil => exact (Obey.cons accepts stands obeys).absentees_iff expected count
    | cons v items =>
      have first : fits v ↔ ∃ x, tree v = .ok x := accepts v
      simp only [InOrder, first, ← ih (count + 1) items]
      constructor
      · rintro ⟨⟨x, values⟩, found⟩
        obtain ⟨x, read, found⟩ := bind_eq_ok_iff.1 found
        obtain ⟨values, found, -⟩ := bind_eq_ok_iff.1 found
        exact ⟨⟨x, read⟩, values, found⟩
      · rintro ⟨⟨x, read⟩, values, found⟩
        exact ⟨(x, values), bind_eq_ok_iff.2 ⟨x, read, bind_eq_ok_iff.2 ⟨values, found, rfl⟩⟩⟩

/-! ### Faults of fields -/

theorem blamesData_fallback {α : Type} (name : String) (slot absent : Option α) :
    BlamesData (fallback name slot absent) := by
  cases slot <;> cases absent <;> nofun

theorem blamesData_close {types : List Type} (fields : Fields types) (slots : Slots types) :
    BlamesData (fields.close slots) := by
  induction fields with
  | nil => exact blamesData_ok ()
  | cons name codec absent rest ih =>
    obtain ⟨slot, slots⟩ := slots
    exact (blamesData_fallback name slot absent).bind fun x _ =>
      (ih slots).bind fun values _ => blamesData_ok (x, values)

theorem blamesData_absentees {types : List Type} (fields : Fields types) (expected : String)
    (count : Nat) : BlamesData (fields.absentees expected count) := by
  induction fields generalizing count with
  | nil => exact blamesData_ok ()
  | cons name codec absent rest ih =>
    cases absent with
    | none => exact blamesData_unfit _
    | some x => exact (ih (count + 1)).bind fun values _ => blamesData_ok (x, values)

theorem Spare.place (spares : fields.Spare trees rules) {key : String} {v : Value}
    (fits : ∀ rule ∈ rules, rule.name = key → rule.fits v) (slots : Slots types) :
    BlamesData (fields.place key v trees slots) := by
  induction spares with
  | nil => exact blamesData_ok ()
  | @cons α types name codec absent rest tree trees kind rules first others ih =>
    obtain ⟨slot, slots⟩ := slots
    obtain ⟨own, fits⟩ := List.forall_mem_cons.1 fits
    simp only [Fields.place]
    by_cases same : key = name
    · rw [if_pos same]
      refine BlamesData.map ?_ _
      cases slot with
      | some found => exact blamesData_unfit _
      | none => exact (first v (own same.symm)).map some
    · rw [if_neg same]
      exact (ih fits slots).map _

theorem Spare.ofMembers (spares : fields.Spare trees rules) {members : List (String × Value)}
    (typed : WellTyped rules members) : BlamesData (fields.ofMembers trees members) := by
  refine (blamesData_foldlM (fun m member slots => ?_) _).bind fun slots _ =>
    blamesData_close fields slots
  exact spares.place (fun rule known same => typed rule known m.2 (mem_held.2 (same ▸ member))) slots

end Fields

/-! ### Records as values of members -/

section Records

variable {types : List Type} {ρ : Type} {name : RecordName} {fields : Fields types}
  {trees : Readings types} {rules : List MemberRule}

theorem accepts_map {α β : Type} {tree : TreeReader α} {fits : Value → Prop}
    (accepts : Accepts tree fits) (f : α → β) : Accepts (fun v => (tree v).map f) fits := by
  intro v
  rw [accepts v]
  exact exists_map_eq_ok_iff.symm

theorem accepts_asRecord (obeys : fields.Obey trees rules)
    (distinct : (rules.map MemberRule.name).Nodup) (assemble : Tuple types → ρ) :
    Accepts (Codec.asRecord name fields trees assemble) (IsRecord rules) := by
  refine accepts_map (fun v => ?_) assemble
  cases v with
  | object members =>
    rw [Codec.asFields, obeys.ofMembers_iff distinct, forall_met_iff]
    constructor
    · rintro (⟨_, same, met⟩ | ⟨_, other, -⟩)
      · cases same
        exact met
      · cases other
    · exact fun met => .inl ⟨members, rfl, met⟩
  | list items =>
    rw [Codec.asFields, obeys.ofItems_iff]
    constructor
    · rintro (⟨_, other, -⟩ | ⟨_, same, ordered⟩)
      · cases other
      · cases same
        exact ordered
    · exact fun ordered => .inr ⟨items, rfl, ordered⟩
  | _ => simp [IsRecord, Codec.asFields, unfit]

end Records

end RunMetrics.Json

import RunMetrics.Proofs.DocumentText

/-!
Codecs read off trees. What a codec takes of a document depends on the value alone that the text depicts:
for each codec there is a function of trees that comes to the same outcome, fault included. The functions
for lists and records are put together from those for their parts, as the codecs are.
-/

set_option autoImplicit false

namespace RunMetrics.Json

/-- What is made of a tree. -/
abbrev TreeReader (α : Type) : Type := Value → Except Fault α

namespace Codec

/-- The codec makes of any text of a value what the function makes of the value. -/
structure ReadsTrees {α : Type} (codec : Codec α) (tree : TreeReader α) : Prop where
  reads : ∀ {core : List Char} {v : Value}, Depicts core v → ∀ {depth : Nat}, Within depth v →
    ∀ {before rest : List Char}, Blank before → EndsValue rest →
      codec.read depth (before ++ (core ++ rest)) = (tree v).map (·, rest)

/-- A whole document is decoded as its value. -/
theorem ReadsTrees.decode {α : Type} {codec : Codec α} {tree : TreeReader α}
    (law : codec.ReadsTrees tree) {text : String} {v : Value} (document : Document text v)
    (shallow : Within nestingLimit v) : codec.decode text = tree v := by
  obtain ⟨part, whole, depicts⟩ := document
  have ends := part.blank_after.endsValue .nothing
  have nothing := part.blank_after.skipBlank_append []
  rw [List.append_nil] at ends nothing
  rw [Codec.decode, readAll, whole, Part.text, law.reads depicts shallow part.blank_before ends]
  cases tree v with
  | error fault => rfl
  | ok x =>
    simp only [Except.map, bind, Except.bind, nothing]
    rfl

/-! ### Scalars -/

def asText : TreeReader String
  | .text s => .ok s
  | v => unfit (.wrongKind v.found "a string")

def asBool : TreeReader Bool
  | .bool b => .ok b
  | v => unfit (.wrongKind v.found "a boolean")

def asNull : TreeReader Unit
  | .null => .ok ()
  | v => unfit (.wrongKind v.found "unit")

def asInteger (low high : Int) (expected : String) : TreeReader Int
  | .number (.integer n) =>
    if low ≤ n ∧ n < high then .ok n else unfit (.integerOutside n expected)
  | v => unfit (.wrongKind v.found expected)

def asInt64 : TreeReader Int64 := fun v =>
  (asInteger (-0x8000000000000000) 0x8000000000000000 "i64" v).map Int64.ofInt

variable {core before rest : List Char} {v : Value}

theorem readText_tree (depicts : Depicts core v) (blank : Blank before) (ends : EndsValue rest) :
    readText (before ++ (core ++ rest)) = (asText v).map (·, rest) := by
  have other := depicts.misplaced "a string" ends
  obtain ⟨c, more, rfl, mark, kind⟩ := depicts.head
  rw [List.cons_append] at other ⊢
  rw [readText, blank.skipBlank_mark mark]
  by_cases wanted : c = '"'
  · subst wanted
    cases v with
    | text s =>
      cases depicts with
      | text spelled =>
        rw [List.append_assoc]
        exact spelled.string rest
    | _ => cases kind
  · simp only [wanted, ↓reduceIte, other]
    cases v with
    | text s =>
      cases depicts
      exact absurd rfl wanted
    | _ => rfl

theorem readBool_tree (depicts : Depicts core v) (blank : Blank before) (ends : EndsValue rest) :
    readBool (before ++ (core ++ rest)) = (asBool v).map (·, rest) := by
  have other := depicts.misplaced "a boolean" ends
  obtain ⟨c, more, rfl, mark, kind⟩ := depicts.head
  rw [List.cons_append] at other ⊢
  rw [readBool, blank.skipBlank_mark mark]
  by_cases wanted : c = 't' ∨ c = 'f'
  · obtain rfl | rfl := wanted <;> cases v with
    | bool b =>
      cases depicts
      rfl
    | _ => cases kind
  · obtain ⟨no_truth, no_falsehood⟩ := not_or.1 wanted
    simp only [no_truth, no_falsehood, ↓reduceIte, other]
    cases v with
    | bool b => cases depicts <;> exact absurd (by decide) wanted
    | _ => rfl

theorem readNull_tree (depicts : Depicts core v) (blank : Blank before) (ends : EndsValue rest) :
    readNull (before ++ (core ++ rest)) = (asNull v).map (·, rest) := by
  have other := depicts.misplaced "unit" ends
  obtain ⟨c, more, rfl, mark, kind⟩ := depicts.head
  rw [List.cons_append] at other ⊢
  rw [readNull, blank.skipBlank_mark mark]
  by_cases wanted : c = 'n'
  · subst wanted
    cases v with
    | null =>
      cases depicts
      rfl
    | _ => cases kind
  · simp only [wanted, ↓reduceIte, other]
    cases v with
    | null =>
      cases depicts
      exact absurd rfl wanted
    | _ => rfl

theorem readInteger_tree (low high : Int) (expected : String) (depicts : Depicts core v)
    (blank : Blank before) (ends : EndsValue rest) :
    readInteger low high expected (before ++ (core ++ rest)) =
      (asInteger low high expected v).map (·, rest) := by
  have other := depicts.misplaced expected ends
  obtain ⟨c, more, rfl, mark, kind⟩ := depicts.head
  rw [List.cons_append] at other ⊢
  rw [readInteger, blank.skipBlank_mark mark]
  by_cases wanted : startsNumber c = true
  · rw [kindOf, if_pos wanted] at kind
    cases v with
    | number x =>
      cases depicts with
      | number denotes =>
        have read := denotes.number ends
        rw [List.cons_append] at read
        simp only [wanted, ↓reduceIte, read, bind, Except.bind]
        cases x with
        | real x => rfl
        | integer n =>
          by_cases inside : low ≤ n ∧ n < high
          · simp only [asInteger, inside, and_self, ↓reduceIte]
            rfl
          · simp only [asInteger, inside, ↓reduceIte]
            rfl
    | _ => cases kind
  · simp only [wanted, Bool.false_eq_true, ↓reduceIte, other]
    cases v with
    | number x =>
      cases depicts with
      | number denotes =>
        obtain ⟨d, others, same, starts⟩ := denotes.head
        rw [(List.cons.inj same).1] at wanted
        exact absurd starts wanted
    | _ => rfl

theorem text_readsTrees : text.ReadsTrees asText :=
  ⟨fun depicts _ _ _ _ blank ends => readText_tree depicts blank ends⟩

theorem bool_readsTrees : bool.ReadsTrees asBool :=
  ⟨fun depicts _ _ _ _ blank ends => readBool_tree depicts blank ends⟩

theorem int64_readsTrees : int64.ReadsTrees asInt64 := by
  refine ⟨fun {core v} depicts depth _ before rest blank ends => ?_⟩
  have read := readInteger_tree (-0x8000000000000000) 0x8000000000000000 "i64" depicts blank ends
  simp only [int64, read, asInt64]
  cases asInteger _ _ _ v <;> rfl

/-! ### Names of a fixed list -/

/-- A name, or an object with the name as its only key and null behind it. -/
def asNamed {α : Type} (names : List (String × α)) : TreeReader α
  | .text s => named names s
  | .object [] => malformed .valueExpected
  | .object ((name, v) :: more) => do
    let value ← named names name
    asNull v
    if more.isEmpty then .ok value else malformed .valueExpected
  | _ => malformed .valueExpected

/-- What stands behind the null of a name is the end of the object just if there is no other member. -/
theorem readNamed_end {α : Type} (value : α) (entries : List Entry) {after closing : List Char}
    (blank_after : Blank after) (blank_closing : Blank closing) (rest : List Char) :
    (match skipBlank (after ++ (((entries.map Entry.text).flatMap fun text => ',' :: text) ++
        (closing ++ '\x7d' :: rest))) with
      | [] => malformed .endInObject
      | c :: rest => if c = '\x7d' then .ok (value, rest) else malformed .valueExpected) =
      (if entries.isEmpty then .ok value else malformed .valueExpected : Except Fault α).map
        (·, rest) := by
  rw [blank_after.skipBlank_append]
  cases entries with
  | nil =>
    rw [List.map_nil, List.flatMap_nil, List.nil_append, blank_closing.skipBlank_mark rfl]
    rfl
  | cons e more => rfl

theorem readNamed_tree {α : Type} (names : List (String × α)) (depicts : Depicts core v)
    {depth : Nat} (shallow : Within depth v) (blank : Blank before) :
    readNamed names depth (before ++ (core ++ rest)) = (asNamed names v).map (·, rest) := by
  obtain ⟨c, more, rfl, mark, kind⟩ := depicts.head
  rw [List.cons_append, readNamed, blank.skipBlank_mark mark]
  by_cases quoted : c = '"'
  · subst quoted
    cases v with
    | text s =>
      cases depicts with
      | text spelled =>
        simp only [List.append_assoc, List.singleton_append, spelled.string, ↓reduceIte, bind,
          Except.bind, asNamed]
        cases named names s <;> rfl
    | _ => cases kind
  · by_cases braced : c = '\x7b'
    · subst braced
      cases v with
      | object members =>
        cases depicts with
        | @object items closing blank_closing depicted =>
          obtain ⟨depth, rfl⟩ := shallow.exists_eq_succ
          simp only [↓reduceIte, Nat.add_one_ne_zero, Char.reduceEq]
          cases items with
          | nil =>
            simp only [List.map_nil, commaSeparated, List.nil_append, List.append_assoc,
              List.cons_append, nextMember_close .take true blank_closing, bind, Except.bind]
            rfl
          | cons item more =>
            obtain ⟨e, v⟩ := item
            have null := readNull_tree (depicted (e, v) List.mem_cons_self) e.value.blank_before
              (e.value.blank_after.endsValue (endsValue_items
                (blank_closing.endsValue (.endOfObject rest)) ((more.map Prod.fst).map Entry.text)))
            have last := fun value : α => readNamed_end value (more.map Prod.fst)
              e.value.blank_after blank_closing rest
            simp only [List.map_cons, commaSeparated_cons, List.append_assoc, Entry.text_append,
              List.cons_append, List.nil_append, nextMember_first .take e.blank_before,
              e.string_inner, e.blank_gap.colon, bind, Except.bind, asNamed]
            cases named names e.key with
            | error fault => rfl
            | ok value =>
              simp only [null]
              cases asNull v with
              | error fault => rfl
              | ok =>
                refine (last value).trans ?_
                simp only [List.isEmpty_map]
      | _ => cases kind
    · simp only [quoted, braced, ↓reduceIte]
      cases v with
      | text s =>
        cases depicts
        exact absurd rfl quoted
      | object members =>
        cases depicts
        exact absurd rfl braced
      | _ => rfl

/-! ### Lists -/

def asList {α : Type} (tree : TreeReader α) : TreeReader (List α)
  | .list items => items.mapM tree
  | v => unfit (.wrongKind v.found "a sequence")

/-- The outcome at the letters of each element is that of the element's tree. -/
theorem ReadsTrees.takes {α : Type} {codec : Codec α} {tree : TreeReader α}
    (law : codec.ReadsTrees tree) {depth : Nat} (depicts : Depicts core v)
    (shallow : Within depth v) : Takes (codec.read depth) core (tree v) :=
  ⟨depicts.startsValue, fun _ ends => law.reads depicts shallow blank_nil ends⟩

theorem list_readsTrees {α : Type} {item : Codec α} {tree : TreeReader α}
    (law : item.ReadsTrees tree) : (list item).ReadsTrees (asList tree) := by
  refine ⟨fun {core v} depicts depth shallow before rest blank ends => ?_⟩
  have other := depicts.misplaced "a sequence" ends
  obtain ⟨c, more, rfl, mark, kind⟩ := depicts.head
  rw [List.cons_append] at other ⊢
  simp only [list, blank.skipBlank_mark mark]
  by_cases wanted : c = '['
  · subst wanted
    cases v with
    | list values =>
      cases depicts with
      | @list items closing blank_closing depicted =>
        cases shallow with
        | @list depth _ inside =>
          have elements : ∀ item' ∈ items, Takes (item.read depth) item'.1.core (tree item'.2) :=
            fun item' member => law.takes (depicted item' member)
              (inside item'.2 (List.mem_map_of_mem member))
          simp only [↓reduceIte, List.append_assoc, List.singleton_append,
            list_parts elements .take blank_closing rest, asList, List.mapM_map]
          rfl
    | _ => cases kind
  · simp only [wanted, ↓reduceIte, other]
    cases v with
    | list items =>
      cases depicts
      exact absurd rfl wanted
    | _ => rfl

end Codec

/-! ### Fields -/

/-- What is made of a tree for each type. -/
inductive Readings : List Type → Type 1 where
  | nil : Readings []
  | cons {α : Type} {types : List Type} (tree : TreeReader α) (rest : Readings types) :
      Readings (α :: types)

namespace Fields

/-- Each codec makes of a text what the function in its place makes of the tree. -/
inductive ReadTrees : {types : List Type} → Fields types → Readings types → Prop where
  | nil : ReadTrees .nil .nil
  | cons {α : Type} {types : List Type} {name : String} {codec : Codec α} {absent : Option α}
      {rest : Fields types} {tree : TreeReader α} {trees : Readings types}
      (first : codec.ReadsTrees tree) (others : ReadTrees rest trees) :
      ReadTrees (.cons name codec absent rest) (.cons tree trees)

/-- Takes a value into the slot of a field, which may be filled once. -/
def fill {α : Type} (name : String) (tree : TreeReader α) (v : Value) :
    Option α → Except Fault (Option α)
  | some _ => unfit (.repeatedField name)
  | none => (tree v).map some

/-- Takes a member of an object; one of a foreign name changes nothing. -/
def place (key : String) (v : Value) :
    {types : List Type} → Fields types → Readings types → Slots types →
      Except Fault (Slots types)
  | [], .nil, _, _ => .ok ()
  | _ :: _, .cons name _ _ rest, .cons tree trees, (slot, slots) =>
    if key = name then (fill name tree v slot).map (·, slots)
    else (rest.place key v trees slots).map (slot, ·)

/-- All fields, from the members of an object. -/
def ofMembers {types : List Type} (fields : Fields types) (trees : Readings types)
    (members : List (String × Value)) : Except Fault (Tuple types) := do
  let slots ← members.foldlM (fun slots m => fields.place m.1 m.2 trees slots) (Slots.empty types)
  fields.close slots

/-- All fields, from the elements of an array, `count` of which have been taken. -/
def ofItems (expected : String) : {types : List Type} → Nat → Fields types → Readings types →
    List Value → Except Fault (Tuple types)
  | [], _, .nil, _, [] => .ok ()
  | [], _, .nil, _, _ :: _ => malformed .textAfterValue
  | _ :: _, count, fields@(.cons _ _ _ _), _, [] => fields.absentees expected count
  | _ :: _, count, .cons _ _ _ rest, .cons tree trees, v :: items => do
    let value ← tree v
    let values ← rest.ofItems expected (count + 1) trees items
    .ok (value, values)

variable {types : List Type}

theorem offer_tree {fields : Fields types} {trees : Readings types} (law : fields.ReadTrees trees)
    (key : String) (slots : Slots types) {depth : Nat} {core : List Char} {v : Value}
    (depicts : Depicts core v) (shallow : Within depth v) {gap before rest : List Char}
    (blank_gap : Blank gap) (blank : Blank before) (ends : EndsValue rest) :
    fields.offer depth key slots (gap ++ ':' :: (before ++ (core ++ rest))) =
      (fields.place key v trees slots).map (·, rest) := by
  induction law with
  | nil =>
    simp only [offer, blank_gap.colon, depicts.skipValue blank ends, bind, Except.bind]
    rfl
  | @cons α types name codec absent others tree trees first law ih =>
    obtain ⟨slot, slots⟩ := slots
    simp only [offer, place]
    by_cases same : key = name
    · simp only [same, ↓reduceIte]
      cases slot with
      | some found => rfl
      | none =>
        simp only [fill, blank_gap.colon, first.reads depicts shallow blank ends, bind, Except.bind]
        cases tree v <;> rfl
    · simp only [same, ↓reduceIte, ih, bind, Except.bind]
      cases others.place key v trees slots <;> rfl

/-- A member that is depicted in an object is taken as its key and value. -/
theorem member_tree {fields : Fields types} {trees : Readings types} (law : fields.ReadTrees trees)
    {e : Entry} {v : Value} (depicts : Depicts e.value.core v) {depth : Nat}
    (shallow : Within depth v) (slots : Slots types) {rest : List Char} (ends : EndsValue rest) :
    fields.member depth slots (e.inner ++ rest) =
      (fields.place e.key v trees slots).map (·, rest) := by
  rw [member_entry]
  exact offer_tree law e.key slots depicts shallow e.blank_gap e.value.blank_before ends

/-! ### Elements as fields -/

theorem closeList_blank {blanks : List Char} (blank : Blank blanks) (cs : List Char) :
    closeList (blanks ++ cs) = closeList cs := by
  rw [closeList, closeList, blank.skipBlank_append]

/-- No further element may start where the fields are used up. -/
theorem closeList_core {core : List Char} (starts : StartsValue core) (rest : List Char) :
    closeList (core ++ rest) = malformed .textAfterValue := by
  obtain ⟨c, more, rfl, mark, no_comma, inside⟩ := starts
  rw [List.cons_append, closeList, skipBlank_cons mark]
  simp only [inside, no_comma, ↓reduceIte]

theorem closeList_comma {core before : List Char} (starts : StartsValue core)
    (blank : Blank before) (rest : List Char) :
    closeList (',' :: (before ++ (core ++ rest))) = malformed .textAfterValue := by
  obtain ⟨c, more, rfl, mark, -, inside⟩ := starts
  rw [closeList, skipBlank_cons rfl]
  simp only [List.cons_append, blank.skipBlank_mark mark, Char.reduceEq, ↓reduceIte]
  split
  · rename_i same
    exact absurd (List.cons.inj same).1 inside
  · rfl

theorem elements_blank (expected : String) (depth count : Nat) (fields : Fields types)
    {blanks : List Char} (blank : Blank blanks) (cs : List Char) :
    fields.elements expected depth count (blanks ++ cs) =
      fields.elements expected depth count cs := by
  cases fields with
  | nil => simp only [elements, closeList_blank blank]
  | cons => simp only [elements, nextElement, blank.skipBlank_append]

/-- An element is taken before those behind it. -/
theorem elements_cons {α : Type} {name : String} {codec : Codec α} {absent : Option α}
    {rest : Fields types} {expected : String} {depth count : Nat} {p : Part}
    {outcome : Except Fault α} {others : Except Fault (Tuple types)}
    (first : Takes (codec.read depth) p.core outcome) {cs tail behind : List Char}
    (ends : EndsValue tail)
    (next : nextElement .take (decide (count = 0)) cs = .ok (.item (p.core ++ (p.after ++ tail))))
    (more : rest.elements expected depth (count + 1) tail = others.map (·, behind)) :
    (cons name codec absent rest).elements expected depth count cs =
      (do let value ← outcome; let values ← others; .ok (value, values) :
        Except Fault (Tuple (α :: types))).map (·, behind) := by
  simp only [elements, next, first.takes _ (p.blank_after.endsValue ends), bind, Except.bind]
  cases outcome with
  | error fault => rfl
  | ok value =>
    simp only [Except.map, rest.elements_blank expected depth (count + 1) p.blank_after, more]
    cases others <;> rfl

/-- An array that ends before a field leaves it and those behind it to what stands for their absence. -/
theorem elements_close (fields : Fields types) (trees : Readings types) (expected : String)
    (depth count : Nat) {closing : List Char} (blank : Blank closing) (rest : List Char) :
    fields.elements expected depth count (closing ++ ']' :: rest) =
      (fields.ofItems expected count trees []).map (·, rest) := by
  cases fields with
  | nil =>
    simp only [elements, closeList, blank.skipBlank_mark (c := ']') rfl]
    rfl
  | cons name codec absent others =>
    simp only [elements, nextElement_close .take _ blank, ofItems, bind, Except.bind]
    cases absentees expected count (cons name codec absent others) <;> rfl

section Items

variable {items : List (Part × Value)} {depth : Nat} {closing : List Char}

/-- The elements behind the first one. -/
theorem elements_more {fields : Fields types} {trees : Readings types}
    (law : fields.ReadTrees trees) (expected : String)
    (depicted : ∀ item ∈ items, Depicts item.1.core item.2)
    (inside : ∀ item ∈ items, Within depth item.2) (blank : Blank closing) (rest : List Char)
    (count : Nat) :
    fields.elements expected depth (count + 1)
        (((items.map fun item => item.1.text).flatMap fun text => ',' :: text) ++
          (closing ++ ']' :: rest)) =
      (fields.ofItems expected (count + 1) trees (items.map Prod.snd)).map (·, rest) := by
  induction law generalizing items count with
  | nil =>
    cases items with
    | nil => exact elements_close .nil .nil expected depth (count + 1) blank rest
    | cons item more =>
      have starts := (depicted item List.mem_cons_self).startsValue
      simp only [List.map_cons, List.flatMap_cons, List.cons_append, List.append_assoc,
        Part.text_append, elements, closeList_comma starts item.1.blank_before]
      rfl
  | @cons α types name codec absent others tree trees first law ih =>
    cases items with
    | nil =>
      exact elements_close (.cons name codec absent others) (.cons tree trees) expected depth
        (count + 1) blank rest
    | cons item more =>
      have taken := first.takes (depicted item List.mem_cons_self) (inside item List.mem_cons_self)
      simp only [List.map_cons, List.flatMap_cons, List.cons_append, List.append_assoc,
        Part.text_append]
      exact elements_cons taken (endsValue_items (blank.endsValue (.endOfList rest)) _)
        (nextElement_comma taken.starts .take item.1.blank_before _)
        (ih (fun other member => depicted other (List.mem_cons_of_mem item member))
          (fun other member => inside other (List.mem_cons_of_mem item member)) (count + 1))

/-- The elements of an array are taken as the fields in order. -/
theorem elements_tree {fields : Fields types} {trees : Readings types}
    (law : fields.ReadTrees trees) (expected : String)
    (depicted : ∀ item ∈ items, Depicts item.1.core item.2)
    (inside : ∀ item ∈ items, Within depth item.2) (blank : Blank closing) (rest : List Char) :
    fields.elements expected depth 0
        (commaSeparated (items.map fun item => item.1.text) ++ (closing ++ ']' :: rest)) =
      (fields.ofItems expected 0 trees (items.map Prod.snd)).map (·, rest) := by
  cases items with
  | nil => exact elements_close fields trees expected depth 0 blank rest
  | cons item more =>
    have starts := (depicted item List.mem_cons_self).startsValue
    rw [List.map_cons, commaSeparated_cons, List.append_assoc, Part.text_append,
      elements_blank _ _ _ _ item.1.blank_before]
    cases law with
    | nil =>
      simp only [elements, closeList_core starts]
      rfl
    | cons first law =>
      have taken := first.takes (depicted item List.mem_cons_self) (inside item List.mem_cons_self)
      exact elements_cons taken (endsValue_items (blank.endsValue (.endOfList rest)) _)
        (nextElement_first starts .take _)
        (elements_more law expected
          (fun other member => depicted other (List.mem_cons_of_mem item member))
          (fun other member => inside other (List.mem_cons_of_mem item member)) blank rest 0)

end Items

end Fields

/-! ### Records -/

namespace Codec

variable {types : List Type}

def asFields (name : RecordName) (fields : Fields types) (trees : Readings types) :
    TreeReader (Tuple types)
  | .object members => fields.ofMembers trees members
  | .list items => fields.ofItems name.withLength 0 trees items
  | v => unfit (.wrongKind v.found name.described)

theorem readFields_tree (name : RecordName) {fields : Fields types} {trees : Readings types}
    (law : fields.ReadTrees trees) {core before rest : List Char} {v : Value}
    (depicts : Depicts core v) {depth : Nat} (shallow : Within depth v) (blank : Blank before)
    (ends : EndsValue rest) :
    readFields name fields depth (before ++ (core ++ rest)) =
      (asFields name fields trees v).map (·, rest) := by
  have other := depicts.misplaced name.described ends
  obtain ⟨c, more, rfl, mark, kind⟩ := depicts.head
  rw [List.cons_append] at other ⊢
  rw [readFields, blank.skipBlank_mark mark]
  by_cases bracketed : c = '['
  · subst bracketed
    cases v with
    | list values =>
      cases depicts with
      | @list items closing blank_closing depicted =>
        cases shallow with
        | @list depth _ inside =>
          simp only [↓reduceIte, List.append_assoc, List.singleton_append]
          exact Fields.elements_tree law name.withLength depicted
            (fun item member => inside item.2 (List.mem_map_of_mem member)) blank_closing rest
    | _ => cases kind
  · by_cases braced : c = '\x7b'
    · subst braced
      cases v with
      | object members =>
        cases depicts with
        | @object items closing blank_closing depicted =>
          cases shallow with
          | @object depth _ inside =>
            have members : ∀ item ∈ items, ∀ slots behind, EndsValue behind →
                fields.member depth slots (item.1.inner ++ behind) =
                  (fields.place item.1.key item.2 trees slots).map (·, behind) :=
              fun item member slots behind ends => Fields.member_tree law (depicted item member)
                (inside (item.1.key, item.2) (List.mem_map_of_mem member)) slots ends
            have gone := (passes_foldlM members (Slots.empty types)).object .take blank_closing rest
            simp only [↓reduceIte, Char.reduceEq, List.append_assoc, List.singleton_append, gone,
              asFields, Fields.ofMembers, List.foldlM_map, bind, Except.bind]
            cases items.foldlM (fun slots item => fields.place item.1.key item.2 trees slots)
              (Slots.empty types) with
            | error fault => rfl
            | ok slots => rfl
      | _ => cases kind
    · simp only [bracketed, braced, ↓reduceIte, other]
      cases v with
      | list items =>
        cases depicts
        exact absurd rfl bracketed
      | object members =>
        cases depicts
        exact absurd rfl braced
      | _ => rfl

/-- A record is what its fields make up. -/
def asRecord {ρ : Type} (name : RecordName) (fields : Fields types) (trees : Readings types)
    (assemble : Tuple types → ρ) : TreeReader ρ := fun v =>
  (asFields name fields trees v).map assemble

theorem record_readsTrees {ρ : Type} {name : RecordName} {fields : Fields types}
    {trees : Readings types} (law : fields.ReadTrees trees) (assemble : Tuple types → ρ)
    (parts : ρ → Tuple types) :
    (record name fields assemble parts).ReadsTrees (asRecord name fields trees assemble) := by
  refine ⟨fun {core v} depicts depth shallow before rest blank ends => ?_⟩
  simp only [record, readFields_tree name law depicts shallow blank ends, asRecord, bind,
    Except.bind]
  cases asFields name fields trees v <;> rfl

end Codec

end RunMetrics.Json

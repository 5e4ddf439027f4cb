import RunMetrics.Proofs.CodecRoundTrip

/-!
JSON documents in any layout. A text depicts a value if the grammar of JSON derives it: blanks may stand
between any two marks, a string may be escaped in any way, and a number may be spelled in any way that
stands for a double. Every such text is read as the value, if brackets are not nested too deeply, and passed
over as a whole.
-/

set_option autoImplicit false

namespace RunMetrics.Json

/-- The letters, without blanks around them, depict the value. -/
inductive Depicts : List Char → Value → Prop where
  | null : Depicts ['n', 'u', 'l', 'l'] .null
  | boolTrue : Depicts ['t', 'r', 'u', 'e'] (.bool true)
  | boolFalse : Depicts ['f', 'a', 'l', 's', 'e'] (.bool false)
  | number {cs : List Char} {value : Number} (denotes : Denotes cs value) :
      Depicts cs (.number value)
  | text {letters : List Char} {value : String} (spelled : Letters letters value.toList) :
      Depicts ('"' :: (letters ++ ['"'])) (.text value)
  | list {items : List (Part × Value)} {closing : List Char} (blank : Blank closing)
      (depicted : ∀ item ∈ items, Depicts item.1.core item.2) :
      Depicts ('[' :: (commaSeparated (items.map fun item => item.1.text) ++ (closing ++ [']'])))
        (.list (items.map Prod.snd))
  | object {items : List (Entry × Value)} {closing : List Char} (blank : Blank closing)
      (depicted : ∀ item ∈ items, Depicts item.1.value.core item.2) :
      Depicts
        ('\x7b' :: (commaSeparated ((items.map Prod.fst).map Entry.text) ++ (closing ++ ['\x7d'])))
        (.object (items.map fun item => (item.1.key, item.2)))

/-- The whole text is a document of the value, with blanks around it. -/
def Document (text : String) (value : Value) : Prop :=
  ∃ part : Part, text.toList = part.text ∧ Depicts part.core value

/-- At most so many brackets are open at once. -/
inductive Within : Nat → Value → Prop where
  | null (depth : Nat) : Within depth .null
  | bool (depth : Nat) (value : Bool) : Within depth (.bool value)
  | number (depth : Nat) (value : Number) : Within depth (.number value)
  | text (depth : Nat) (value : String) : Within depth (.text value)
  | list {depth : Nat} {items : List Value} (inside : ∀ item ∈ items, Within depth item) :
      Within (depth + 1) (.list items)
  | object {depth : Nat} {members : List (String × Value)}
      (inside : ∀ m ∈ members, Within depth m.2) : Within (depth + 1) (.object members)

theorem Within.exists_eq_succ {depth : Nat} {members : List (String × Value)}
    (shallow : Within depth (.object members)) : ∃ fewer, depth = fewer + 1 := by
  cases shallow
  exact ⟨_, rfl⟩

/-- What stands where the value was found. -/
def Value.found : Value → Found
  | .null => .null
  | .bool value => .bool value
  | .number (.integer value) => .integer value
  | .number (.real value) => .real value
  | .text value => .text value
  | .list _ => .list
  | .object _ => .object

/-- The kinds of values that the first letter of a document tells apart. -/
inductive Kind where
  | null
  | bool
  | number
  | text
  | list
  | object

def Value.kind : Value → Kind
  | .null => .null
  | .bool _ => .bool
  | .number _ => .number
  | .text _ => .text
  | .list _ => .list
  | .object _ => .object

/-- The kind of the values that can start with the letter. -/
def kindOf (c : Char) : Kind :=
  if startsNumber c then .number
  else if c = 'n' then .null
  else if c = 't' ∨ c = 'f' then .bool
  else if c = '"' then .text
  else if c = '[' then .list
  else .object

theorem Depicts.head {core : List Char} {value : Value} (depicts : Depicts core value) :
    ∃ c more, core = c :: more ∧ isBlank c = false ∧ kindOf c = value.kind := by
  cases depicts with
  | number denotes =>
    obtain ⟨c, more, rfl, starts⟩ := denotes.head
    exact ⟨c, more, rfl, isBlank_of_startsNumber starts, if_pos starts⟩
  | _ => exact ⟨_, _, rfl, rfl, rfl⟩

theorem Depicts.startsValue {core : List Char} {value : Value} (depicts : Depicts core value) :
    StartsValue core := by
  cases depicts with
  | number denotes => exact denotes.startsValue
  | _ => exact startsValue_cons rfl (by decide) _

theorem list_append (texts : List (List Char)) (closing rest : List Char) (bracket opening : Char) :
    opening :: (commaSeparated texts ++ (closing ++ [bracket])) ++ rest =
      opening :: (commaSeparated texts ++ (closing ++ bracket :: rest)) := by
  simp only [List.cons_append, List.append_assoc, List.nil_append]

/-! ### Reading -/

theorem treeMember_inner {reader : Reader Value} {e : Entry} {value : Value}
    {earlier : List (String × Value)} {rest : List Char}
    (read : reader (e.value.before ++ (e.value.core ++ rest)) = .ok (value, rest)) :
    treeMember reader earlier (e.inner ++ rest) = .ok ((e.key, value) :: earlier, rest) := by
  rw [treeMember, e.string_inner]
  simp only [bind, Except.bind, e.blank_gap.colon, read]

theorem foldlM_collect {β γ : Type} (f : β → γ) (xs : List β) :
    (xs.foldlM (fun earlier x => (.ok (f x :: earlier) : Except Fault (List γ))) []) =
      .ok (xs.map f).reverse := by
  have folded := List.foldlM_pure (m := Except Fault) (l := xs) (b := [])
    (f := fun earlier x => f x :: earlier)
  rw [List.foldl_flip_cons_eq_append, List.append_nil] at folded
  exact folded

/-- A document is read as the value it depicts. -/
theorem Depicts.read {core : List Char} {value : Value} (depicts : Depicts core value)
    {depth : Nat} (shallow : Within depth value) {before rest : List Char} (blank : Blank before)
    (ends : EndsValue rest) : Value.read depth (before ++ (core ++ rest)) = .ok (value, rest) := by
  induction depicts generalizing depth before rest with
  | null => exact Value.read_null depth blank rest
  | boolTrue => exact Value.read_bool depth blank true rest
  | boolFalse => exact Value.read_bool depth blank false rest
  | number denotes => exact denotes.read depth blank ends
  | text spelled => exact spelled.read depth blank rest
  | @list items closing blank_closing depicted ih =>
    cases shallow with
    | list inside =>
      have law : ∀ item ∈ items, Takes (Value.read _) item.1.core (.ok item.2) := fun item member =>
        ⟨(depicted item member).startsValue, fun behind ends =>
          ih item member (inside item.2 (List.mem_map_of_mem member)) blank_nil ends⟩
      have collected : (items.mapM fun item => (.ok item.2 : Except Fault Value)) =
          .ok (items.map Prod.snd) := List.mapM_pure
      rw [list_append, Value.read, blank.skipBlank_mark rfl]
      simp only [list_parts law .take blank_closing rest, collected, Except.map, bind, Except.bind,
        Char.reduceEq, ↓reduceIte]
      rfl
  | @object items closing blank_closing depicted ih =>
    cases shallow with
    | object inside =>
      have law : ∀ item ∈ items, ∀ earlier behind, EndsValue behind →
          treeMember (Value.read _) earlier (item.1.inner ++ behind) =
            (.ok ((item.1.key, item.2) :: earlier) : Except Fault _).map (·, behind) :=
        fun item member earlier behind ends => treeMember_inner
          (ih item member (inside (item.1.key, item.2) (List.mem_map_of_mem member))
            item.1.value.blank_before ends)
      have passes := passes_foldlM law []
      rw [foldlM_collect fun item : Entry × Value => (item.1.key, item.2)] at passes
      rw [list_append, Value.read, blank.skipBlank_mark rfl]
      simp only [passes.object .take blank_closing rest, Except.map, bind, Except.bind,
        Char.reduceEq, ↓reduceIte, List.reverse_reverse]
      rfl

/-! ### Passing over -/

theorem length_le_commaSeparated {text : List Char} {texts : List (List Char)}
    (member : text ∈ texts) : text.length ≤ (commaSeparated texts).length := by
  obtain ⟨first, rest, rfl⟩ := List.exists_cons_of_ne_nil (List.ne_nil_of_mem member)
  rw [commaSeparated_cons, List.length_append]
  obtain rfl | behind := List.mem_cons.1 member
  · omega
  · have inside := (List.sublist_flatten_of_mem
      (List.mem_map_of_mem (f := fun other => ',' :: other) behind)).length_le
    rw [← List.flatMap_def, List.length_cons] at inside
    omega

theorem Part.length_core_le (p : Part) : p.core.length ≤ p.text.length := by
  simp only [text, List.length_append]
  omega

theorem Entry.length_core_le (e : Entry) : e.value.core.length ≤ e.text.length := by
  simp only [text, inner, List.length_append, List.length_cons]
  omega

theorem skippedMember_inner {skip : List Char → Except Fault (List Char)} {e : Entry}
    {rest : List Char}
    (skipped : skip (e.value.before ++ (e.value.core ++ rest)) = .ok rest) :
    skippedMember skip () (e.inner ++ rest) = .ok ((), rest) := by
  rw [skippedMember, e.skipString_inner]
  simp only [bind, Except.bind, e.blank_gap.colon, skipped]

theorem Denotes.skipWithin {cs : List Char} {value : Number} (denotes : Denotes cs value)
    (left : Nat) {before rest : List Char} (blank : Blank before) (ends : EndsValue rest) :
    skipWithin (left + 1) (before ++ (cs ++ rest)) = .ok rest := by
  obtain ⟨n, spelled, -⟩ := denotes
  have read := spelled.numeral .skip ends
  obtain ⟨c, more, rfl, starts⟩ := spelled.head
  rw [List.cons_append] at read ⊢
  rw [Json.skipWithin, blank.skipBlank_mark (isBlank_of_startsNumber starts)]
  simp only [ne_of_startsNumber starts (d := 'n') rfl, ne_of_startsNumber starts (d := 't') rfl,
    ne_of_startsNumber starts (d := 'f') rfl, starts, ↓reduceIte, skipNumber, read, bind,
    Except.bind]

/-- A document is passed over as a whole, however deep its brackets are nested: there are more letters
than brackets. -/
theorem Depicts.skipWithin {core : List Char} {value : Value} (depicts : Depicts core value)
    {left : Nat} (enough : core.length ≤ left) {before rest : List Char} (blank : Blank before)
    (ends : EndsValue rest) : skipWithin left (before ++ (core ++ rest)) = .ok rest := by
  induction depicts generalizing left before rest with
  | null | boolTrue | boolFalse =>
    obtain ⟨left, rfl⟩ := Nat.exists_eq_add_of_lt enough
    rw [List.cons_append, Json.skipWithin, blank.skipBlank_mark rfl]
    rfl
  | number denotes =>
    obtain ⟨left, rfl⟩ :=
      Nat.exists_eq_add_of_le' (Nat.le_trans denotes.startsValue.length_pos enough)
    exact denotes.skipWithin left blank ends
  | text spelled =>
    obtain ⟨left, rfl⟩ := Nat.exists_eq_add_of_lt enough
    rw [List.cons_append, List.append_assoc, List.singleton_append, Json.skipWithin,
      blank.skipBlank_mark rfl]
    simp only [Char.reduceEq, ↓reduceIte, spelled.skipString]
    rfl
  | @list items closing blank_closing depicted ih =>
    obtain ⟨left, rfl⟩ := Nat.exists_eq_add_of_le' (Nat.le_trans (Nat.le_add_left 1 _) enough)
    have law : ∀ item ∈ items, Takes
        (fun cs => do let cs ← Json.skipWithin left cs; .ok ((), cs)) item.1.core (.ok ()) := by
      intro item member
      have inside := Nat.le_trans item.1.length_core_le
        (length_le_commaSeparated (List.mem_map_of_mem (f := fun item => item.1.text) member))
      rw [List.length_cons, List.length_append] at enough
      refine ⟨(depicted item member).startsValue, fun behind ends => ?_⟩
      have shorter : item.1.core.length ≤ left := by omega
      have skipped := ih item member shorter blank_nil ends
      rw [List.nil_append] at skipped
      simp only [skipped, bind, Except.bind]
      rfl
    have collected : (items.mapM fun _ => (.ok () : Except Fault Unit)) =
        .ok (items.map fun _ => ()) := List.mapM_pure
    have gone := list_parts law .skip blank_closing rest
    rw [collected] at gone
    rw [list_append, Json.skipWithin, blank.skipBlank_mark rfl]
    simp only [bind, Except.bind, Char.reduceEq, ↓reduceIte] at gone ⊢
    rw [gone]
    rfl
  | @object items closing blank_closing depicted ih =>
    obtain ⟨left, rfl⟩ := Nat.exists_eq_add_of_le' (Nat.le_trans (Nat.le_add_left 1 _) enough)
    have law : ∀ item ∈ items, ∀ (state : Unit) behind, EndsValue behind →
        skippedMember (Json.skipWithin left) state (item.1.inner ++ behind) =
          (.ok () : Except Fault Unit).map (·, behind) := by
      intro item member _ behind ends
      have inside := Nat.le_trans item.1.length_core_le (length_le_commaSeparated
        (List.mem_map_of_mem (f := Entry.text) (List.mem_map_of_mem (f := Prod.fst) member)))
      rw [List.length_cons, List.length_append] at enough
      have shorter : item.1.value.core.length ≤ left := by omega
      exact skippedMember_inner (ih item member shorter item.1.value.blank_before ends)
    have collected : (items.foldlM (fun _ _ => (.ok () : Except Fault Unit)) ()) =
        .ok (items.foldl (fun _ _ => ()) ()) := List.foldlM_pure
    have passes := passes_foldlM law ()
    rw [collected] at passes
    rw [list_append, Json.skipWithin, blank.skipBlank_mark rfl]
    simp only [passes.object .skip blank_closing rest, Except.map, bind, Except.bind,
      Char.reduceEq, ↓reduceIte]
    rfl

theorem Depicts.skipValue {core : List Char} {value : Value} (depicts : Depicts core value)
    {before rest : List Char} (blank : Blank before) (ends : EndsValue rest) :
    skipValue (before ++ (core ++ rest)) = .ok rest := by
  refine depicts.skipWithin ?_ blank ends
  simp only [List.length_append]
  omega

/-! ### Refusing -/

/-- Where another kind of value is asked for, the fault names what was found. -/
theorem Depicts.misplaced {core : List Char} {value : Value} (depicts : Depicts core value)
    (expected : String) {rest : List Char} (ends : EndsValue rest) :
    Codec.misplaced expected (core ++ rest) = .unfit (.wrongKind value.found expected) := by
  cases depicts with
  | null | boolTrue | boolFalse => rfl
  | @number _ value denotes =>
    have read := denotes.number ends
    obtain ⟨c, more, rfl, starts⟩ := denotes.head
    rw [List.cons_append] at read ⊢
    simp only [Codec.misplaced, ne_of_startsNumber starts (d := 'n') rfl,
      ne_of_startsNumber starts (d := 't') rfl, ne_of_startsNumber starts (d := 'f') rfl, starts,
      ↓reduceIte, read]
    cases value <;> rfl
  | text spelled =>
    rw [List.cons_append, List.append_assoc, List.singleton_append]
    simp only [Codec.misplaced, Char.reduceEq, ↓reduceIte, spelled.string]
    rfl
  | list => rfl
  | object => rfl

end RunMetrics.Json

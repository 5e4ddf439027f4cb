import RunMetrics.Json.Value
import RunMetrics.Proofs.NumberText
import RunMetrics.Proofs.StringText

/-!
Arrays and objects with blanks anywhere between their parts. What a reader makes of the whole follows from
what it makes of each element or member, whether it takes them or passes over them: elements are read one
by one until one is faulty, and a state is passed through the members until one is faulty.
-/

set_option autoImplicit false

namespace RunMetrics.Json

/-! ### Blanks -/

def Blank (cs : List Char) : Prop := ∀ c ∈ cs, isBlank c = true

theorem blank_nil : Blank [] := fun _ member => absurd member List.not_mem_nil

theorem skipBlank_cons {c : Char} (mark : isBlank c = false) (cs : List Char) :
    skipBlank (c :: cs) = c :: cs := List.dropWhile_cons_of_neg (Bool.eq_false_iff.1 mark)

theorem Blank.skipBlank_append {blanks : List Char} (blank : Blank blanks) (cs : List Char) :
    skipBlank (blanks ++ cs) = skipBlank cs := List.dropWhile_append_of_pos blank

theorem Blank.skipBlank_mark {blanks : List Char} (blank : Blank blanks) {c : Char}
    (mark : isBlank c = false) (cs : List Char) : skipBlank (blanks ++ c :: cs) = c :: cs := by
  rw [blank.skipBlank_append, skipBlank_cons mark]

theorem Blank.endsValue {blanks rest : List Char} (blank : Blank blanks) (ends : EndsValue rest) :
    EndsValue (blanks ++ rest) := by
  cases blanks with
  | nil => exact ends
  | cons c cs => exact .blank (blank c List.mem_cons_self) _

/-- A text of a value starts with a letter that is neither a blank nor a comma nor the end of a list. -/
def StartsValue (cs : List Char) : Prop :=
  ∃ c more, cs = c :: more ∧ isBlank c = false ∧ c ≠ ',' ∧ c ≠ ']'

theorem startsValue_cons {c : Char} (mark : isBlank c = false) (inside : c ≠ ',' ∧ c ≠ ']')
    (cs : List Char) : StartsValue (c :: cs) := ⟨c, cs, rfl, mark, inside⟩

theorem StartsValue.length_pos {cs : List Char} (starts : StartsValue cs) : 0 < cs.length := by
  obtain ⟨c, more, rfl, -⟩ := starts
  exact Nat.succ_pos _

theorem ne_of_startsNumber {c d : Char} (starts : startsNumber c = true)
    (other : startsNumber d = false) : c ≠ d := by
  rintro rfl
  rw [starts] at other
  cases other

theorem isBlank_of_startsNumber {c : Char} (starts : startsNumber c = true) :
    isBlank c = false := by
  have other {d : Char} (blank : startsNumber d = false) : c ≠ d := ne_of_startsNumber starts blank
  simp only [isBlank, Bool.or_eq_false_iff, beq_eq_false_iff_ne]
  exact ⟨⟨⟨other rfl, other rfl⟩, other rfl⟩, other rfl⟩

theorem Denotes.startsValue {cs : List Char} {value : Number} (denotes : Denotes cs value) :
    StartsValue cs := by
  obtain ⟨c, more, rfl, starts⟩ := denotes.head
  exact startsValue_cons (isBlank_of_startsNumber starts)
    ⟨ne_of_startsNumber starts rfl, ne_of_startsNumber starts rfl⟩ more

/-- A part of a text with the blanks around it. -/
structure Part where
  before : List Char
  core : List Char
  after : List Char
  blank_before : Blank before
  blank_after : Blank after

def Part.text (p : Part) : List Char := p.before ++ (p.core ++ p.after)

/-- A part without blanks. -/
def Part.bare (core : List Char) : Part := ⟨[], core, [], blank_nil, blank_nil⟩

@[simp] theorem Part.text_bare (core : List Char) : (Part.bare core).text = core :=
  List.append_nil core

theorem Part.text_append (p : Part) (rest : List Char) :
    p.text ++ rest = p.before ++ (p.core ++ (p.after ++ rest)) := by
  rw [text, List.append_assoc, List.append_assoc]

/-! ### Arrays -/

theorem commaSeparated_cons (item : List Char) (items : List (List Char)) :
    commaSeparated (item :: items) = item ++ items.flatMap fun other => ',' :: other := by
  induction items generalizing item with
  | nil => rw [commaSeparated, List.flatMap_nil, List.append_nil]
  | cons other rest ih =>
    change item ++ ',' :: commaSeparated (other :: rest) = _
    rw [ih, List.flatMap_cons, List.cons_append]

/-- Further items, and the bracket behind them, end the value before them. -/
theorem endsValue_items {bracket : List Char} (ends : EndsValue bracket)
    (items : List (List Char)) :
    EndsValue ((items.flatMap fun other => ',' :: other) ++ bracket) := by
  cases items with
  | nil => exact ends
  | cons item rest => exact .comma _

theorem length_le_items (items : List (List Char)) :
    items.length ≤ (items.flatMap fun other => ',' :: other).length := by
  induction items with
  | nil => exact Nat.zero_le _
  | cons item rest ih =>
    rw [List.flatMap_cons, List.length_append, List.length_cons, List.length_cons]
    omega

section Elements

variable {α β : Type}

/-- The reader comes to the outcome at the given letters, whatever ends a value behind them. -/
structure Takes (item : Reader α) (core : List Char) (outcome : Except Fault α) : Prop where
  starts : StartsValue core
  takes : ∀ rest, EndsValue rest → item (core ++ rest) = outcome.map (·, rest)

theorem nextElement_first {core : List Char} (starts : StartsValue core) (mode : Mode)
    (rest : List Char) : nextElement mode true (core ++ rest) = .ok (.item (core ++ rest)) := by
  obtain ⟨c, more, rfl, mark, -, inside⟩ := starts
  rw [List.cons_append, nextElement, skipBlank_cons mark]
  simp only [inside, ↓reduceIte]

theorem nextElement_comma {core : List Char} (starts : StartsValue core) (mode : Mode)
    {before : List Char} (blank : Blank before) (rest : List Char) :
    nextElement mode false (',' :: (before ++ (core ++ rest))) = .ok (.item (core ++ rest)) := by
  obtain ⟨c, more, rfl, mark, -, inside⟩ := starts
  rw [nextElement, skipBlank_cons rfl]
  simp only [List.cons_append, blank.skipBlank_mark mark, inside, Char.reduceEq,
    Bool.false_eq_true, ↓reduceIte]

theorem nextElement_close (mode : Mode) (first : Bool) {blanks : List Char} (blank : Blank blanks)
    (rest : List Char) : nextElement mode first (blanks ++ ']' :: rest) = .ok (.close rest) := by
  rw [nextElement, blank.skipBlank_mark rfl]
  rfl

theorem elements_blank {item : Reader α} {blanks : List Char} (blank : Blank blanks) (mode : Mode)
    (left : Nat) (first : Bool) (cs : List Char) :
    elements mode item left first (blanks ++ cs) = elements mode item left first cs := by
  cases left with
  | zero => rfl
  | succ left => rw [elements, elements, nextElement, nextElement, blank.skipBlank_append]

theorem elements_close {item : Reader α} {blanks : List Char} (blank : Blank blanks) (mode : Mode)
    (left : Nat) (first : Bool) (rest : List Char) :
    elements mode item (left + 1) first (blanks ++ ']' :: rest) = .ok ([], rest) := by
  rw [elements, nextElement_close mode first blank]
  rfl

variable {item : Reader α} {part : β → Part} {judge : β → Except Fault α} {closing : List Char}

/-- An element is read before those behind it. -/
theorem Takes.elements_cons {p : Part} {outcome : Except Fault α} {others : Except Fault (List α)}
    (first : Takes item p.core outcome) {mode : Mode} {start : Bool} {left : Nat}
    {cs tail rest : List Char} (ends : EndsValue tail)
    (next : nextElement mode start cs = .ok (.item (p.core ++ (p.after ++ tail))))
    (more : elements mode item left false tail = others.map (·, rest)) :
    elements mode item (left + 1) start cs =
      (do let x ← outcome; let xs ← others; pure (x :: xs) : Except Fault (List α)).map
        (·, rest) := by
  rw [elements, next]
  simp only [bind, Except.bind, first.takes _ (p.blank_after.endsValue ends)]
  cases outcome with
  | error fault => rfl
  | ok x =>
    simp only [Except.map, elements_blank p.blank_after, more]
    cases others <;> rfl

/-- The elements behind the first one, each of which uses up one of the count. -/
theorem elements_parts {values : List β} (law : ∀ v ∈ values, Takes item (part v).core (judge v))
    (mode : Mode) (blank : Blank closing) (rest : List Char) {left : Nat}
    (enough : values.length < left) :
    elements mode item left false
        (((values.map fun v => (part v).text).flatMap fun text => ',' :: text) ++
          (closing ++ ']' :: rest)) =
      (values.mapM judge).map (·, rest) := by
  induction values generalizing left with
  | nil =>
    obtain ⟨left, rfl⟩ := Nat.exists_eq_add_of_lt enough
    exact elements_close blank mode _ false rest
  | cons v vs ih =>
    obtain ⟨left, rfl⟩ := Nat.exists_eq_add_of_lt enough
    have first := law v List.mem_cons_self
    have fewer : vs.length < (v :: vs).length + left := by rw [List.length_cons]; omega
    have more := ih (fun w member => law w (List.mem_cons_of_mem v member)) fewer
    rw [List.map_cons, List.flatMap_cons, List.cons_append, List.cons_append, List.append_assoc,
      Part.text_append, List.mapM_cons]
    exact first.elements_cons (endsValue_items (blank.endsValue (.endOfList rest)) _)
      (nextElement_comma first.starts mode (part v).blank_before _) more

/-- The elements of an array are judged one after the other. -/
theorem list_parts {values : List β} (law : ∀ v ∈ values, Takes item (part v).core (judge v))
    (mode : Mode) (blank : Blank closing) (rest : List Char) :
    list mode item (commaSeparated (values.map fun v => (part v).text) ++
        (closing ++ ']' :: rest)) =
      (values.mapM judge).map (·, rest) := by
  rw [list]
  cases values with
  | nil =>
    obtain ⟨left, length⟩ : ∃ left, (closing ++ ']' :: rest).length = left + 1 :=
      ⟨_, by rw [List.length_append, List.length_cons, Nat.add_assoc]⟩
    rw [List.map_nil, commaSeparated, List.nil_append, length]
    exact elements_close blank mode _ true rest
  | cons v vs =>
    have first := law v List.mem_cons_self
    rw [List.map_cons, commaSeparated_cons, List.append_assoc, Part.text_append, List.mapM_cons,
      elements_blank (part v).blank_before]
    obtain ⟨left, length, enough⟩ : ∃ left, ((part v).before ++ ((part v).core ++ ((part v).after ++
        (((vs.map fun v => (part v).text).flatMap fun text => ',' :: text) ++
          (closing ++ ']' :: rest))))).length = left + 1 ∧ vs.length < left := by
      have long := first.starts.length_pos
      have shorter := length_le_items (vs.map fun v => (part v).text)
      simp only [List.length_append, List.length_cons, List.length_map] at shorter ⊢
      exact ⟨_, (Nat.sub_add_cancel (by omega)).symm, by omega⟩
    rw [length]
    exact first.elements_cons (endsValue_items (blank.endsValue (.endOfList rest)) _)
      (nextElement_first first.starts mode _)
      (elements_parts (fun w member => law w (List.mem_cons_of_mem v member)) mode blank rest enough)

end Elements

/-! ### Objects -/

/-- A member of an object: its key between quotes, a colon and its value, and the blanks between
them. -/
structure Entry where
  before : List Char
  letters : List Char
  key : String
  gap : List Char
  value : Part
  blank_before : Blank before
  spelled : Letters letters key.toList
  blank_gap : Blank gap

namespace Entry

/-- What stands between the opening quote of the key and the end of the value. -/
def inner (e : Entry) : List Char :=
  e.letters ++ '"' :: (e.gap ++ ':' :: (e.value.before ++ e.value.core))

def text (e : Entry) : List Char := e.before ++ '"' :: (e.inner ++ e.value.after)

theorem text_append (e : Entry) (rest : List Char) :
    e.text ++ rest = e.before ++ '"' :: (e.inner ++ (e.value.after ++ rest)) := by
  rw [text, List.append_assoc, List.cons_append, List.append_assoc]

theorem inner_append (e : Entry) (rest : List Char) :
    e.inner ++ rest =
      e.letters ++ '"' :: (e.gap ++ ':' :: (e.value.before ++ (e.value.core ++ rest))) := by
  simp only [inner, List.append_assoc, List.cons_append]

theorem length_inner_pos (e : Entry) : 0 < e.inner.length := by
  rw [inner, List.length_append, List.length_cons]
  omega

/-- The key of a member is read whatever it is spelled with. -/
theorem string_inner (e : Entry) (rest : List Char) :
    string (e.inner ++ rest) =
      .ok (e.key, e.gap ++ ':' :: (e.value.before ++ (e.value.core ++ rest))) := by
  rw [inner_append, e.spelled.string]

theorem skipString_inner (e : Entry) (rest : List Char) :
    skipString (e.inner ++ rest) =
      .ok (e.gap ++ ':' :: (e.value.before ++ (e.value.core ++ rest))) := by
  rw [inner_append, e.spelled.skipString]

end Entry

theorem Blank.colon {blanks : List Char} (blank : Blank blanks) (rest : List Char) :
    colon (blanks ++ ':' :: rest) = .ok rest := by
  rw [Json.colon, blank.skipBlank_mark rfl]
  rfl

section Members

variable {σ : Type} {member : σ → Reader σ}

/-- The members of an object, one after the other, bring the state to the outcome. -/
inductive Passes (member : σ → Reader σ) : σ → List Entry → Except Fault σ → Prop where
  | nil (state : σ) : Passes member state [] (.ok state)
  | cons {state next : σ} {outcome : Except Fault σ} {e : Entry} {entries : List Entry}
    (taken : ∀ rest, EndsValue rest → member state (e.inner ++ rest) = .ok (next, rest))
    (others : Passes member next entries outcome) : Passes member state (e :: entries) outcome
  | stop {state : σ} {fault : Fault} {e : Entry} (entries : List Entry)
    (refused : ∀ rest, EndsValue rest → member state (e.inner ++ rest) = .error fault) :
    Passes member state (e :: entries) (.error fault)

theorem nextMember_first (mode : Mode) {before : List Char} (blank : Blank before)
    (rest : List Char) : nextMember mode true (before ++ '"' :: rest) = .ok (.item rest) := by
  rw [nextMember, blank.skipBlank_mark rfl]
  rfl

theorem nextMember_close (mode : Mode) (first : Bool) {blanks : List Char} (blank : Blank blanks)
    (rest : List Char) : nextMember mode first (blanks ++ '\x7d' :: rest) = .ok (.close rest) := by
  rw [nextMember, blank.skipBlank_mark rfl]
  rfl

theorem nextMember_comma (mode : Mode) {before : List Char} (blank : Blank before)
    (rest : List Char) : nextMember mode false (',' :: (before ++ '"' :: rest)) = .ok (.item rest) := by
  rw [nextMember, skipBlank_cons rfl]
  simp only [blank.skipBlank_mark (c := '"') rfl, Char.reduceEq, Bool.false_eq_true, ↓reduceIte]

theorem members_blank {blanks : List Char} (blank : Blank blanks) (mode : Mode) (left : Nat)
    (first : Bool) (state : σ) (cs : List Char) :
    members mode member left first state (blanks ++ cs) =
      members mode member left first state cs := by
  cases left with
  | zero => rfl
  | succ left => rw [members, members, nextMember, nextMember, blank.skipBlank_append]

theorem members_close {blanks : List Char} (blank : Blank blanks) (mode : Mode) (left : Nat)
    (first : Bool) (state : σ) (rest : List Char) :
    members mode member (left + 1) first state (blanks ++ '\x7d' :: rest) = .ok (state, rest) := by
  rw [members, nextMember_close mode first blank]
  rfl

variable {closing : List Char} {state : σ} {entries : List Entry} {outcome : Except Fault σ}

/-- A member changes the state before those behind it. -/
theorem members_cons {next : σ} {mode : Mode} {e : Entry} {start : Bool} {left : Nat}
    {cs tail rest : List Char} (ends : EndsValue tail)
    (taken : ∀ rest, EndsValue rest → member state (e.inner ++ rest) = .ok (next, rest))
    (found : nextMember mode start cs = .ok (.item (e.inner ++ (e.value.after ++ tail))))
    (more : members mode member left false next tail = outcome.map (·, rest)) :
    members mode member (left + 1) start state cs = outcome.map (·, rest) := by
  rw [members, found]
  simp only [bind, Except.bind, taken _ (e.value.blank_after.endsValue ends),
    members_blank e.value.blank_after, more]

theorem members_stop {fault : Fault} {mode : Mode} {e : Entry} {start : Bool} {left : Nat}
    {cs tail : List Char} (ends : EndsValue tail)
    (refused : ∀ rest, EndsValue rest → member state (e.inner ++ rest) = .error fault)
    (found : nextMember mode start cs = .ok (.item (e.inner ++ (e.value.after ++ tail)))) :
    members mode member (left + 1) start state cs = .error fault := by
  rw [members, found]
  simp only [bind, Except.bind, refused _ (e.value.blank_after.endsValue ends)]

/-- The members behind the first one, each of which uses up one of the count. -/
theorem Passes.members (passes : Passes member state entries outcome) (mode : Mode)
    (blank : Blank closing) (rest : List Char) {left : Nat} (enough : entries.length < left) :
    members mode member left false state
        (((entries.map Entry.text).flatMap fun text => ',' :: text) ++
          (closing ++ '\x7d' :: rest)) =
      outcome.map (·, rest) := by
  induction passes generalizing left with
  | nil state =>
    obtain ⟨left, rfl⟩ := Nat.exists_eq_add_of_lt enough
    exact members_close blank mode _ false state rest
  | cons taken others ih =>
    obtain ⟨left, rfl⟩ := Nat.exists_eq_add_of_lt enough
    rw [List.map_cons, List.flatMap_cons, List.cons_append, List.cons_append, List.append_assoc,
      Entry.text_append]
    exact members_cons (endsValue_items (blank.endsValue (.endOfObject rest)) _) taken
      (nextMember_comma mode (Entry.blank_before _) _) (ih (by rw [List.length_cons]; omega))
  | stop entries refused =>
    obtain ⟨left, rfl⟩ := Nat.exists_eq_add_of_lt enough
    rw [List.map_cons, List.flatMap_cons, List.cons_append, List.cons_append, List.append_assoc,
      Entry.text_append]
    exact members_stop (endsValue_items (blank.endsValue (.endOfObject rest)) _) refused
      (nextMember_comma mode (Entry.blank_before _) _)

/-- Behind the first member there is more than one letter left for each other one. -/
theorem object_cons (member : σ → Reader σ) (state : σ)
    (mode : Mode) (e : Entry) (entries : List Entry) (bracket : List Char) :
    ∃ left, entries.length < left ∧
      object mode member state (commaSeparated ((e :: entries).map Entry.text) ++ bracket) =
        Json.members mode member (left + 1) true state (e.before ++ '"' :: (e.inner ++
          (e.value.after ++
            (((entries.map Entry.text).flatMap fun text => ',' :: text) ++ bracket)))) := by
  rw [Json.object, List.map_cons, commaSeparated_cons, List.append_assoc, Entry.text_append]
  obtain ⟨left, length, enough⟩ : ∃ left, (e.before ++ '"' :: (e.inner ++ (e.value.after ++
      (((entries.map Entry.text).flatMap fun text => ',' :: text) ++ bracket)))).length =
        left + 1 ∧ entries.length < left := by
    have long := e.length_inner_pos
    have shorter := length_le_items (entries.map Entry.text)
    simp only [List.length_append, List.length_cons, List.length_map] at shorter ⊢
    exact ⟨_, (Nat.sub_add_cancel (m := 1) (by omega)).symm, by omega⟩
  exact ⟨left, enough, by rw [length]⟩

/-- An object is gone through member by member. -/
theorem Passes.object (passes : Passes member state entries outcome) (mode : Mode)
    (blank : Blank closing) (rest : List Char) :
    object mode member state (commaSeparated (entries.map Entry.text) ++
        (closing ++ '\x7d' :: rest)) =
      outcome.map (·, rest) := by
  have ends (texts : List (List Char)) := endsValue_items
    (blank.endsValue (.endOfObject rest)) texts
  cases passes with
  | nil state =>
    obtain ⟨left, length⟩ : ∃ left, (closing ++ '\x7d' :: rest).length = left + 1 :=
      ⟨_, by rw [List.length_append, List.length_cons, Nat.add_assoc]⟩
    rw [List.map_nil, commaSeparated, List.nil_append, Json.object, length]
    exact members_close blank mode _ true state rest
  | cons taken others =>
    obtain ⟨left, enough, same⟩ := object_cons member state mode _ _
      (closing ++ '\x7d' :: rest)
    rw [same]
    exact members_cons (ends _) taken (nextMember_first mode (Entry.blank_before _) _)
      (others.members mode blank rest enough)
  | stop entries refused =>
    obtain ⟨left, enough, same⟩ := object_cons member state mode _ entries
      (closing ++ '\x7d' :: rest)
    rw [same]
    exact members_stop (ends _) refused (nextMember_first mode (Entry.blank_before _) _)

/-- A step that each member takes from any state is folded over the members. -/
theorem passes_foldlM {β : Type} {entry : β → Entry} {step : σ → β → Except Fault σ} {xs : List β}
    (law : ∀ x ∈ xs, ∀ state rest, EndsValue rest →
      member state ((entry x).inner ++ rest) = (step state x).map (·, rest)) (state : σ) :
    Passes member state (xs.map entry) (xs.foldlM step state) := by
  induction xs generalizing state with
  | nil => exact .nil state
  | cons x xs ih =>
    have first := law x List.mem_cons_self state
    rw [List.foldlM_cons]
    cases reached : step state x with
    | error fault =>
      exact .stop _ fun rest ends => by rw [first rest ends, reached]; rfl
    | ok next =>
      exact .cons (fun rest ends => by rw [first rest ends, reached]; rfl)
        (ih (fun other found => law other (List.mem_cons_of_mem x found)) next)

end Members

end RunMetrics.Json

import RunMetrics.Proofs.RecordLayout

/-!
Who gets the blame for a document. A document that is no record is refused as an invalid value, unless the
reader stops at a value that it misreads: then the text is called malformed, although it is not. That happens
where an array that stands for a record goes on behind the last field, and where the name of a projection is
neither a string nor an object of that name alone.
-/

set_option autoImplicit false

namespace RunMetrics.Record

open Json

variable {text : String} {v : Value}

theorem decode_eq_malformed_iff {ρ : Type} {codec : Codec ρ} {cause : Malformed} :
    decode codec text = .error (.document (.malformed cause)) ↔
      codec.decode text = .error (.malformed cause) := by
  rw [decode]
  cases codec.decode text with
  | ok r => simp [Except.mapError]
  | error fault => cases fault <;> simp [Except.mapError, Failure.ofRecord]

theorem RecordType.malformed_iff_misread (t : RecordType) (document : Document text v)
    (shallow : Within nestingLimit v) :
    (∃ cause, t.codec.decode text = .error (.malformed cause)) ↔ IsRecordMisread t.sortRules v := by
  obtain ⟨tree, sorts⟩ := t.sortsBy.exists_sorts
  rw [sorts.reads.decode document shallow]
  exact (sorts.misreads v).symm

/-- Whatever shape a document has, its text is called malformed just if it is misread: in the order of the
document, with all before it taken, comes a value for which the reader blames the text. Any other document
that is refused is an invalid value. -/
theorem document_is_blamed_iff_misread (t : RecordType) (document : Document text v)
    (shallow : Within nestingLimit v) :
    ((∃ cause, decode t.codec text = .error (.document (.malformed cause))) ↔
      IsRecordMisread t.sortRules v) ∧
      ∀ f, decode t.codec text = .error f → ¬IsRecordMisread t.sortRules v → f.isRefusal = true := by
  have blamed := t.malformed_iff_misread document shallow
  refine ⟨?_, fun f failed sound => isRefusal_of_blamesData ?_ failed⟩
  · simp only [decode_eq_malformed_iff]
    exact blamed
  · exact fun cause malformed => sound (blamed.1 ⟨cause, malformed⟩)

/-- An object whose only member has a number for the name of a projection. -/
theorem document_of_numbered_projection :
    Document "\x7b\"summary_type\":5\x7d" (.object [("summary_type", .number (.integer 5))]) := by
  have five : Denotes ['5'] (.integer 5) := @denotes_writeInteger 5 (by decide) (by decide)
  refine ⟨.bare _, ?_, @Depicts.object
    [(writtenEntry ("summary_type", ['5']), .number (.integer 5))] [] blank_nil ?_⟩
  · rfl
  · exact List.forall_mem_singleton.2 (.number five)

/-- The row is not refused for what it lacks. -/
theorem text_is_blamed_for_numbered_projection :
    ∃ cause, decode RecordType.row.codec "\x7b\"summary_type\":5\x7d" =
      .error (.document (.malformed cause)) := by
  have shallow : Within nestingLimit (.object [("summary_type", .number (.integer 5))]) :=
    .object (List.forall_mem_singleton.2 (.number _ _))
  refine (document_is_blamed_iff_misread .row document_of_numbered_projection shallow).1.2 ?_
  refine .inl ⟨_, rfl, [], ⟨⟨"summary_type", _, _⟩, IsNameMisread ["latest", "min", "max"]⟩,
    .tail _ (.tail _ (.head _)), _, [], rfl, ?_, ?_, rfl, trivial⟩
  · exact fun rule _ => List.forall_mem_nil _
  · exact fun rule _ => Nat.zero_le _

theorem document_of_long_note :
    Document "[\"a\",\"b\",\"c\"]" (.list [.text "a", .text "b", .text "c"]) := by
  refine ⟨.bare _, ?_, @Depicts.list [(.bare ['"', 'a', '"'], .text "a"),
    (.bare ['"', 'b', '"'], .text "b"), (.bare ['"', 'c', '"'], .text "c")] [] blank_nil ?_⟩
  · rfl
  · exact List.forall_mem_cons.2 ⟨@Depicts.text ['a'] "a" (letters_written ['a']),
      List.forall_mem_cons.2 ⟨@Depicts.text ['b'] "b" (letters_written ['b']),
        List.forall_mem_singleton.2 (@Depicts.text ['c'] "c" (letters_written ['c']))⟩⟩

/-- A document may be refused and not be called an invalid value. -/
theorem long_note_is_no_invalid_value :
    ¬∀ (t : RecordType) (text : String) (v : Value), Document text v → Within nestingLimit v →
      ∀ f, decode t.codec text = .error f → f.isRefusal = true := by
  intro promise
  have shallow : Within nestingLimit (.list [.text "a", .text "b", .text "c"]) :=
    .list (List.forall_mem_cons.2 ⟨.text _ _, List.forall_mem_cons.2 ⟨.text _ _,
      List.forall_mem_singleton.2 (.text _ _)⟩⟩)
  obtain ⟨cause, malformed⟩ :=
    (RecordType.note.malformed_iff_misread document_of_long_note shallow).2
      (isRecordMisread_plain_iff.2 ⟨[.text "a", .text "b"], [.text "c"], rfl,
        List.cons_ne_nil _ _, .cons ⟨"a", rfl⟩ (.cons ⟨"b", rfl⟩ .nil)⟩)
  cases promise .note _ _ document_of_long_note shallow _ (decode_eq_malformed_iff.2 malformed)

end RunMetrics.Record

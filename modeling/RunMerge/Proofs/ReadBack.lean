import RunMerge.Text

/-!
# A line can be read back

The texts of numbers hold no space, so the pieces between the spaces of a line are the texts of its values,
and each of them is read as the value that it shows. A line thus tells its values, the least and the
greatest number included. None of the texts is empty; a space at an end of a line or next to another one
would leave an empty piece, so there is none.
-/

namespace RunMerge

namespace Line

structure SinglySpaced (cs : List Char) : Prop where
  first : cs.head? ≠ some ' '
  last : cs.getLast? ≠ some ' '
  apart : ¬[' ', ' '] <:+: cs

structure ReadsAs (values : List Int32) (line : String) : Prop where
  eq_empty_iff : line = "" ↔ values = []
  pieces_read : values ≠ [] → (line.toList.splitOn ' ').map readValue? = values.map some
  spaced : SinglySpaced line.toList
  written_in : ∀ c ∈ line.toList, c.isDigit = true ∨ c = '-' ∨ c = ' '

end Line

namespace Text

/-- The pieces between separators are those that the library cuts. -/
theorem split_eq_splitOn (sep : Char) (cs : List Char) : split sep cs = cs.splitOn sep := by
  rw [List.splitOn_eq_splitOnP]
  induction cs with
  | nil => rfl
  | cons c rest ih =>
    obtain ⟨piece, others, hrest⟩ :=
      List.exists_cons_of_ne_nil (List.splitOnP_ne_nil (· == sep) rest)
    rw [split, ih, hrest, List.splitOnP_cons_eq_if_modifyHead, hrest, List.modifyHead_cons]
    simp only [beq_iff_eq]

theorem ofInt_ne_nil (n : Int) : ofInt n ≠ [] := by
  cases n with
  | ofNat n => exact Nat.toDigits_ne_nil
  | negSucc n => exact List.cons_ne_nil _ _

theorem isDigit_or_minus_of_mem_ofInt {n : Int} {c : Char} (h : c ∈ ofInt n) :
    c.isDigit = true ∨ c = '-' := by
  cases n with
  | ofNat n => exact .inl (isDigit_of_mem_ofNat h)
  | negSucc n =>
    rcases List.mem_cons.mp h with hminus | hdigit
    · exact .inr hminus
    · exact .inl (isDigit_of_mem_ofNat hdigit)

theorem space_not_mem_ofInt (n : Int) : ' ' ∉ ofInt n := by
  intro h
  rcases isDigit_or_minus_of_mem_ofInt h with hdigit | hminus
  · exact absurd hdigit (by decide)
  · exact absurd hminus (by decide)

theorem readInt?_of_unsigned {cs : List Char} (h : '-' ∉ cs) :
    readInt? cs = (readNat? cs).map fun n => (n : Int) := by
  unfold readInt?
  split
  · exact absurd List.mem_cons_self h
  · rfl

/-- A number is read back from its text, whatever its sign. -/
theorem readInt?_ofInt (n : Int) : readInt? (ofInt n) = some n := by
  cases n with
  | ofNat n =>
    have hunsigned : '-' ∉ ofNat n := fun h => absurd (isDigit_of_mem_ofNat h) (by decide)
    rw [ofInt, readInt?_of_unsigned hunsigned, readNat?_ofNat]
    rfl
  | negSucc n =>
    rw [ofInt, readInt?, readNat?_ofNat]
    rfl

end Text

namespace Line

theorem readValue?_ofInt (value : Int32) : readValue? (Text.ofInt value.toInt) = some value := by
  have hfits : Int32.minValue.toInt ≤ value.toInt ∧ value.toInt ≤ Int32.maxValue.toInt :=
    ⟨value.minValue_le_toInt, value.toInt_le⟩
  simp only [readValue?, Text.readInt?_ofInt, if_pos hfits, Int32.ofInt_toInt]

/-- The pieces of a line are the texts of its values. -/
theorem splitOn_chars {values : List Int32} (h : values ≠ []) :
    (chars values).splitOn ' ' = values.map fun value => Text.ofInt value.toInt := by
  refine List.splitOn_intercalate ' ' ?_ (by simpa using h)
  intro piece hpiece
  obtain ⟨value, -, rfl⟩ := List.mem_map.mp hpiece
  exact Text.space_not_mem_ofInt value.toInt

theorem map_readValue?_splitOn_chars {values : List Int32} (h : values ≠ []) :
    ((chars values).splitOn ' ').map readValue? = values.map some := by
  rw [splitOn_chars h, List.map_map]
  exact List.map_congr_left fun value _ => readValue?_ofInt value

theorem nil_not_mem_splitOn_chars {values : List Int32} (h : values ≠ []) :
    [] ∉ (chars values).splitOn ' ' := by
  rw [splitOn_chars h]
  intro hnil
  obtain ⟨value, -, hvalue⟩ := List.mem_map.mp hnil
  exact Text.ofInt_ne_nil value.toInt hvalue

/-- An empty text has one piece, which is empty too. -/
theorem chars_ne_nil {values : List Int32} (h : values ≠ []) : chars values ≠ [] := by
  intro hchars
  have hpieces := nil_not_mem_splitOn_chars h
  rw [hchars] at hpieces
  exact hpieces List.mem_cons_self

theorem render_eq_empty_iff {values : List Int32} : render values = "" ↔ values = [] := by
  rw [render, String.ofList_eq_empty_iff]
  cases values with
  | nil => exact iff_of_true rfl rfl
  | cons value rest =>
    have hne : value :: rest ≠ [] := List.cons_ne_nil _ _
    exact iff_of_false (chars_ne_nil hne) hne

/-- The pieces of a text are those before a space and those behind it. -/
theorem nil_not_mem_of_cut {before behind : List Char}
    (h : [] ∉ (before ++ ' ' :: behind).splitOn ' ') :
    [] ∉ before.splitOn ' ' ∧ [] ∉ behind.splitOn ' ' := by
  rwa [List.splitOn_eq_splitOnP, List.splitOnP_append_cons before behind (by decide),
    List.mem_append, not_or] at h

/-- A space that does not stand between characters of two pieces leaves a piece without any. -/
theorem singlySpaced_of_splitOn {cs : List Char} (h : [] ∉ cs.splitOn ' ') : SinglySpaced cs := by
  constructor
  case first =>
    intro hfirst
    obtain ⟨rest, rfl⟩ := List.head?_eq_some_iff.mp hfirst
    exact (@nil_not_mem_of_cut [] rest h).1 List.mem_cons_self
  case last =>
    intro hlast
    obtain ⟨front, rfl⟩ := List.getLast?_eq_some_iff.mp hlast
    exact (@nil_not_mem_of_cut front [] h).2 List.mem_cons_self
  case apart =>
    rintro ⟨before, behind, rfl⟩
    have hsecond := (@nil_not_mem_of_cut before (' ' :: behind) (by simpa using h)).2
    exact (@nil_not_mem_of_cut [] behind hsecond).1 List.mem_cons_self

theorem singlySpaced_chars (values : List Int32) : SinglySpaced (chars values) := by
  cases values with
  | nil => constructor <;> simp [chars]
  | cons value rest => exact singlySpaced_of_splitOn (nil_not_mem_splitOn_chars (List.cons_ne_nil _ _))

theorem chars_cons_cons (value next : Int32) (rest : List Int32) :
    chars (value :: next :: rest) = Text.ofInt value.toInt ++ ' ' :: chars (next :: rest) := by
  simp [chars, List.intercalate_cons_cons]

/-- What a line is written in. The induction is on the values that follow the first one. -/
theorem mem_chars {values : List Int32} {c : Char} (h : c ∈ chars values) :
    c.isDigit = true ∨ c = '-' ∨ c = ' ' := by
  have hpiece : ∀ n : Int, c ∈ Text.ofInt n → c.isDigit = true ∨ c = '-' ∨ c = ' ' := by
    intro n hn
    exact (Text.isDigit_or_minus_of_mem_ofInt hn).imp_right .inl
  induction values with
  | nil => cases h
  | cons value rest ih =>
    cases rest with
    | nil => exact hpiece value.toInt (by simpa [chars] using h)
    | cons next rest =>
      rw [chars_cons_cons, List.mem_append, List.mem_cons] at h
      rcases h with hfirst | hspace | hbehind
      · exact hpiece value.toInt hfirst
      · exact .inr (.inr hspace)
      · exact ih hbehind

theorem read?_render (values : List Int32) : read? (render values) = some values := by
  cases values with
  | nil => rfl
  | cons value rest =>
    have hne : value :: rest ≠ [] := List.cons_ne_nil _ _
    rw [read?, if_neg (mt render_eq_empty_iff.mp hne), render, String.toList_ofList,
      Text.split_eq_splitOn, splitOn_chars hne, List.mapM_map]
    have hread : readValue? ∘ (fun value : Int32 => Text.ofInt value.toInt) = fun value => pure value :=
      funext readValue?_ofInt
    rw [hread, List.mapM_pure, List.map_id']
    rfl

/-- A line tells its values. It is empty if there are none, and otherwise its pieces are read as the values,
in their order and with none left out. So no two lists of values have one line. -/
theorem render_lossless (values : List Int32) :
    ReadsAs values (render values) ∧ read? (render values) = some values ∧
      ∀ values', render values' = render values → values' = values := by
  refine ⟨?_, read?_render values, ?_⟩
  · constructor
    case eq_empty_iff => exact render_eq_empty_iff
    all_goals rw [render, String.toList_ofList]
    case pieces_read => exact map_readValue?_splitOn_chars
    case spaced => exact singlySpaced_chars values
    case written_in => exact fun c => mem_chars
  · intro values' hline
    have hread := read?_render values'
    rw [hline, read?_render values] at hread
    exact (Option.some.inj hread).symm

/-- The least and the greatest number and those around zero. -/
theorem render_lossless_extremes :
    ([-2147483648, -1, 0, 2147483647] : List Int32) ≠ [] ∧
      render [-2147483648, -1, 0, 2147483647] = "-2147483648 -1 0 2147483647" ∧
      ("-2147483648 -1 0 2147483647".toList.splitOn ' ').map readValue? =
        [some (-2147483648), some (-1), some 0, some 2147483647] := by
  obtain ⟨hreads, -⟩ := render_lossless [-2147483648, -1, 0, 2147483647]
  have hline : render [-2147483648, -1, 0, 2147483647] = "-2147483648 -1 0 2147483647" := by decide
  have hpieces := hreads.pieces_read (by decide)
  rw [hline] at hpieces
  exact ⟨by decide, hline, hpieces⟩

end Line

end RunMerge

import Mathlib.Data.List.Basic
import Cleartext.Descriptor
import Cleartext.Proofs.Reading

/-!
# The language of method descriptors

A class name may hold parentheses and brackets, so where the parameters of a descriptor end
cannot be found without reading them.  `FieldType` is the grammar of what is read.  The reader
of one type takes exactly what the grammar has of it off the front (`splitType_ok`), and no
type starts with the parenthesis that closes the parameters, so a descriptor is read exactly
if it is spelled from parts (`parse_ok`).

The parts are the answer of a function then, and there is one way only to spell a descriptor.
The slots of its parameters are counted from the types (`argSlots_eq`).
-/

namespace Cleartext.Descriptor

/-- A field type: a primitive one, a class, or an array of a field type. -/
inductive FieldType : List Char → Prop
  | primitive {c : Char} (h : c ∈ ['B', 'C', 'D', 'F', 'I', 'J', 'S', 'Z']) : FieldType [c]
  | object {name : List Char} (h : ';' ∉ name) : FieldType ('L' :: (name ++ [';']))
  | array {type : List Char} (h : FieldType type) : FieldType ('[' :: type)

/-- The parts of a descriptor, and the text that they make up. -/
structure Spells (d : Descriptor) (text : String) : Prop where
  params : ∀ type ∈ d.params, FieldType type.toList
  result : d.result = "V" ∨ FieldType d.result.toList
  text_eq : text = "(" ++ String.join d.params ++ ")" ++ d.result

variable {text type : String} {t cs rest : List Char} {d : Descriptor}

/-! ## One type -/

/-- The name of a class is split off behind its first semicolon. -/
theorem splitClass_ok {part : List Char} :
    splitClass cs = some (part, rest) ↔
      ∃ name, ';' ∉ name ∧ part = name ++ [';'] ∧ cs = part ++ rest := by
  induction cs generalizing part with
  | nil =>
    refine iff_of_false (by rw [splitClass]; exact nofun) ?_
    rintro ⟨name, -, rfl, h⟩
    simp at h
  | cons c cs ih =>
    by_cases hc : c = ';'
    · subst hc
      simp only [splitClass, Option.some.injEq, Prod.mk.injEq]
      constructor
      · rintro ⟨rfl, rfl⟩
        exact ⟨[], List.not_mem_nil, rfl, rfl⟩
      · rintro ⟨name, hname, rfl, hcs⟩
        cases name with
        | nil => exact ⟨rfl, (List.cons.inj hcs).2⟩
        | cons a name => exact absurd ((List.cons.inj hcs).1 ▸ List.mem_cons_self) hname
    · rw [splitClass.eq_3 _ _ hc, Option.map_eq_some_iff]
      constructor
      · rintro ⟨⟨part', rest'⟩, h, hpart⟩
        obtain ⟨rfl, rfl⟩ := Prod.mk.inj hpart
        obtain ⟨name, hname, rfl, rfl⟩ := ih.1 h
        exact ⟨c :: name, by simpa [Ne.symm hc] using hname, rfl, rfl⟩
      · rintro ⟨name, hname, rfl, hcs⟩
        cases name with
        | nil => exact absurd (List.cons.inj hcs).1 hc
        | cons a name =>
          obtain ⟨rfl, rfl⟩ := List.cons.inj hcs
          exact ⟨⟨name ++ [';'], rest⟩,
            ih.2 ⟨name, fun h => hname (List.mem_cons_of_mem _ h), rfl, rfl⟩, rfl⟩

/-- What is split off the front is a field type. -/
theorem splitType_sound (h : splitType cs = .ok (t, rest)) : FieldType t ∧ cs = t ++ rest := by
  fun_induction splitType cs generalizing t rest with
  | case1 | case4 | case6 => cases h
  | case2 cs ih =>
    cases hsplit : splitType cs with
    | error e =>
      rw [hsplit] at h
      cases h
    | ok answer =>
      rw [hsplit] at h
      obtain ⟨rfl, rfl⟩ := Prod.mk.inj (Except.ok.inj h)
      obtain ⟨htype, rfl⟩ := ih hsplit
      exact ⟨.array htype, rfl⟩
  | case3 cs part _ hsplit =>
    obtain ⟨rfl, rfl⟩ := Prod.mk.inj (Except.ok.inj h)
    obtain ⟨name, hname, rfl, rfl⟩ := splitClass_ok.1 hsplit
    exact ⟨.object hname, rfl⟩
  | case5 cs c _ _ hprimitive =>
    obtain ⟨rfl, rfl⟩ := Prod.mk.inj (Except.ok.inj h)
    exact ⟨.primitive hprimitive, rfl⟩

/-- A field type is split off whatever follows it. -/
theorem splitType_complete (h : FieldType t) (rest : List Char) :
    splitType (t ++ rest) = .ok (t, rest) := by
  induction h with
  | @primitive c h =>
    have hc : c ≠ '[' ∧ c ≠ 'L' := by
      constructor <;> rintro rfl <;> exact absurd h (by decide)
    simp only [List.singleton_append]
    rw [splitType.eq_4 _ _ hc.1 hc.2]
    exact if_pos h
  | @object name h =>
    have hsplit : splitClass (name ++ [';'] ++ rest) = some (name ++ [';'], rest) :=
      splitClass_ok.2 ⟨name, h, rfl, rfl⟩
    simp only [List.cons_append, splitType, hsplit]
  | array h ih =>
    simp only [List.cons_append, splitType, ih]
    rfl

/-- The reader of a type takes exactly a field type. -/
theorem splitType_ok : splitType cs = .ok (t, rest) ↔ FieldType t ∧ cs = t ++ rest := by
  refine ⟨splitType_sound, ?_⟩
  rintro ⟨h, rfl⟩
  exact splitType_complete h rest

/-- The result of a descriptor is one field type and no more. -/
theorem isType_iff : isType cs = true ↔ FieldType cs := by
  rw [isType]
  constructor
  · intro h
    split at h
    · rename_i t hsplit
      obtain ⟨ht, rfl⟩ := splitType_ok.1 hsplit
      rwa [List.append_nil]
    · cases h
  · intro h
    have hsplit : splitType cs = .ok (cs, []) := splitType_ok.2 ⟨h, (List.append_nil cs).symm⟩
    rw [hsplit]

/-! ## Parameters -/

/-- A type has a first character, and none starts with what closes the parameters. -/
theorem FieldType.exists_cons (h : FieldType t) : ∃ c t', t = c :: t' ∧ c ≠ ')' := by
  cases h with
  | primitive h =>
    refine ⟨_, [], rfl, ?_⟩
    rintro rfl
    exact absurd h (by decide)
  | object | array => exact ⟨_, _, rfl, by decide⟩

/-- The types that are split off are the parameters up to the parenthesis that closes them. -/
theorem splitParams_sound {fuel : Nat} {params : List String}
    (h : splitParams fuel cs = .ok (some (params, rest))) :
    (∀ type ∈ params, FieldType type.toList) ∧
      cs = params.flatMap String.toList ++ ')' :: rest := by
  fun_induction splitParams fuel cs generalizing params with
  | case1 | case2 => cases h
  | case3 =>
    obtain ⟨rfl, rfl⟩ := Prod.mk.inj (Option.some.inj (Except.ok.inj h))
    exact ⟨nofun, rfl⟩
  | case4 fuel cs _ _ ih =>
    obtain ⟨⟨t, rest₁⟩, hsplit, h⟩ := Except.bind_ok.1 h
    obtain ⟨split, hrest, h⟩ := Except.bind_ok.1 h
    obtain ⟨⟨params', rest₂⟩, rfl, hparams⟩ := Option.map_eq_some_iff.1 (Except.pure_ok.1 h)
    obtain ⟨rfl, rfl⟩ := Prod.mk.inj hparams
    obtain ⟨ht, rfl⟩ := splitType_ok.1 hsplit
    obtain ⟨htypes, rfl⟩ := ih _ hrest
    refine ⟨List.forall_mem_cons.2 ⟨?_, htypes⟩, ?_⟩
    · rwa [String.toList_ofList]
    · rw [List.flatMap_cons, String.toList_ofList, List.append_assoc]

/-- Parameters are split off with fuel for their characters. -/
theorem splitParams_complete {fuel : Nat} {params : List String}
    (hparams : ∀ type ∈ params, FieldType type.toList) 
    (hfuel : (params.flatMap String.toList).length < fuel) :
    splitParams fuel (params.flatMap String.toList ++ ')' :: rest) = .ok (some (params, rest)) := by
  induction params generalizing fuel with
  | nil =>
    obtain ⟨fuel, rfl⟩ := Nat.exists_eq_succ_of_ne_zero (by omega : fuel ≠ 0)
    rfl
  | cons type params ih =>
    obtain ⟨fuel, rfl⟩ := Nat.exists_eq_succ_of_ne_zero (by omega : fuel ≠ 0)
    obtain ⟨htype, hparams⟩ := List.forall_mem_cons.1 hparams
    have hsplit := splitType_complete htype (params.flatMap String.toList ++ ')' :: rest)
    obtain ⟨c, t, ht, hc⟩ := htype.exists_cons
    rw [List.flatMap_cons, ht, List.length_append, List.length_cons] at hfuel
    rw [List.flatMap_cons, List.append_assoc]
    rw [ht, List.cons_append] at hsplit ⊢
    rw [splitParams.eq_4 _ _ (List.cons_ne_nil _ _) fun _ h => hc (List.cons.inj h).1, hsplit]
    refine Except.bind_ok.2 ⟨_, rfl, Except.bind_ok.2 ⟨_, ih hparams (by omega), ?_⟩⟩
    rw [Option.map_some, ← ht, String.ofList_toList]
    rfl

/-! ## Descriptors -/

theorem spelling_iff {params : List String} {result : String} :
    text = "(" ++ String.join params ++ ")" ++ result ↔
      text.toList = '(' :: (params.flatMap String.toList ++ ')' :: result.toList) := by
  rw [← String.toList_inj]
  simp only [String.toList_append, String.toList_join]
  rw [show "(".toList = ['('] from rfl, show ")".toList = [')'] from rfl]
  simp only [List.cons_append, List.nil_append, List.append_assoc]

theorem Spells.three_le_utf8ByteSize (h : d.Spells text) : 3 ≤ text.utf8ByteSize := by
  have hresult : d.result ≠ "" := by
    intro hempty
    rcases h.result with hvoid | htype
    · exact absurd (hvoid.symm.trans hempty) (by decide)
    · obtain ⟨c, t, ht, -⟩ := htype.exists_cons
      rw [hempty] at ht
      cases ht
  have hpositive : d.result.utf8ByteSize ≠ 0 :=
    fun h => hresult (String.utf8ByteSize_eq_zero_iff.1 h)
  rw [h.text_eq]
  simp only [String.utf8ByteSize_append]
  rw [show "(".utf8ByteSize = 1 from rfl, show ")".utf8ByteSize = 1 from rfl]
  omega

/-- What stands behind the parameters is accepted if it is `V` or a field type. -/
theorem result_iff {result : String} :
    (result.toList = ['V'] || isType result.toList) = true ↔
      result = "V" ∨ FieldType result.toList := by
  rw [Bool.or_eq_true, decide_eq_true_eq, isType_iff, ← String.toList_inj]
  rfl

/-- Descriptors are read exactly from the text that they spell. -/
theorem parse_ok : parse text = .ok d ↔ d.Spells text := by
  obtain ⟨params, result⟩ := d
  constructor
  · intro h
    unfold parse at h
    split at h
    · rename_i rest htext
      split at h
      · cases h
      · split at h
        · cases h
        · cases h
        · rename_i params' result' hsplit
          split at h
          · rename_i hresult
            obtain ⟨rfl, rfl⟩ := Descriptor.mk.inj (Except.ok.inj h)
            obtain ⟨hparams, rfl⟩ := splitParams_sound hsplit
            refine ⟨hparams, result_iff.1 ?_, spelling_iff.2 ?_⟩
            · rwa [String.toList_ofList]
            · rw [htext, String.toList_ofList]
          · cases h
    · cases h
  · intro h
    have hsize := h.three_le_utf8ByteSize
    obtain ⟨hparams, hresult, htext⟩ := h
    rw [spelling_iff] at htext
    have hsplit : splitParams ((params.flatMap String.toList ++ ')' :: result.toList).length + 1)
        (params.flatMap String.toList ++ ')' :: result.toList) =
          .ok (some (params, result.toList)) :=
      splitParams_complete hparams (by rw [List.length_append]; omega)
    unfold parse
    split
    · rename_i rest hrest
      obtain rfl := (List.cons.inj (htext.symm.trans hrest)).2
      rw [if_neg (Nat.not_lt.2 hsize)]
      simp only [hsplit]
      rw [if_pos (result_iff.2 hresult), String.ofList_toList]
    · rename_i hother
      exact (hother _ htext).elim

/-! ## Slots -/

/-- A field type takes one slot, or two if it is `long` or `double`. -/
theorem FieldType.typeSlots_eq (h : FieldType type.toList) :
    typeSlots type = 1 + (if type = "J" then 1 else 0) + (if type = "D" then 1 else 0) := by
  have hvoid : type ≠ "V" := by
    rintro rfl
    exact nomatch h
  have hempty : type ≠ "" := by
    rintro rfl
    exact nomatch h
  simp only [typeSlots, hvoid, hempty]
  by_cases hlong : type = "J"
  · simp [hlong]
  · simp only [hlong]
    by_cases hdouble : type = "D" <;> simp [hdouble]

/-- Parameters take a slot each, and one more for each `long` or `double`. -/
theorem sum_typeSlots {params : List String} (h : ∀ type ∈ params, FieldType type.toList) :
    (params.map typeSlots).foldr (· + ·) 0 =
      params.length + params.count "J" + params.count "D" := by
  induction params with
  | nil => rfl
  | cons type params ih =>
    obtain ⟨htype, hparams⟩ := List.forall_mem_cons.1 h
    rw [List.map_cons, List.foldr_cons, ih hparams, htype.typeSlots_eq, List.length_cons,
      List.count_cons, List.count_cons]
    simp only [beq_iff_eq]
    omega

/-- Text is read as a descriptor if and only if it is spelled from types.  There is one way
to spell it then, and it takes a slot for each parameter and one more for each `long` or
`double`. -/
theorem parse_exact (text : String) :
    ((∃ d, parse text = .ok d) ↔
      ∃ params result, (∀ type ∈ params, FieldType type.toList) ∧
        (result = "V" ∨ FieldType result.toList) ∧
        text = "(" ++ String.join params ++ ")" ++ result) ∧
    ∀ d, parse text = .ok d →
      d.Spells text ∧ (∀ d' : Descriptor, d'.Spells text → d' = d) ∧
        d.argSlots = d.params.length + d.params.count "J" + d.params.count "D" := by
  constructor
  · constructor
    · rintro ⟨d, h⟩
      obtain ⟨hparams, hresult, htext⟩ := parse_ok.1 h
      exact ⟨d.params, d.result, hparams, hresult, htext⟩
    · rintro ⟨params, result, hparams, hresult, htext⟩
      exact ⟨⟨params, result⟩, parse_ok.2 ⟨hparams, hresult, htext⟩⟩
  · intro d h
    have hspells := parse_ok.1 h
    refine ⟨hspells, fun d' h' => ?_, sum_typeSlots hspells.params⟩
    exact Except.ok.inj ((parse_ok.2 h').symm.trans h)

/-- A class name with the parenthesis, and an array that takes one slot only. -/
theorem parse_exact_parenthesis :
    parse "(JLa)[;[J)V" = .ok ⟨["J", "La)[;", "[J"], "V"⟩ ∧
      (∀ d : Descriptor, d.Spells "(JLa)[;[J)V" → d = ⟨["J", "La)[;", "[J"], "V"⟩) ∧
      argSlots ⟨["J", "La)[;", "[J"], "V"⟩ = 4 := by
  have hparse : parse "(JLa)[;[J)V" = .ok ⟨["J", "La)[;", "[J"], "V"⟩ := rfl
  obtain ⟨-, hunique, hslots⟩ := (parse_exact "(JLa)[;[J)V").2 _ hparse
  exact ⟨hparse, hunique, hslots⟩

end Cleartext.Descriptor

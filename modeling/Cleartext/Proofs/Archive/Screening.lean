import Cleartext.Archive.Candidate
import Cleartext.Proofs.Class.Adding
import Cleartext.Proofs.Class.RoundTrip
import Cleartext.Proofs.Pattern.Decryption
import Cleartext.Proofs.Text.ModifiedUtf8
import Cleartext.Proofs.Text.Utf16
import Mathlib.Data.List.Infix

/-!
# Screening classes by their bytes

`mayUseDecrypt` looks for the constant with the descriptor of a routine in the bytes of a
class, before anything is parsed.  A class that calls a routine (`CallsRoutine`) or has
one (`DeclaresRoutine`) names that descriptor in its pool, but the pool may spell it in
more bytes than the search looks for: text is read in overlong forms too.

* `CallsRoutine.spells` and `DeclaresRoutine.spells`: from a use of a routine to a text
  entry of the pool that reads as the descriptor.
* `Spells.eq_or_overlong`: such an entry holds what the search looks for, or it is longer.
* `mayUseDecrypt_or_overlong`: a class with a use of a routine is found, unless its pool
  spells the descriptor in overlong forms only.
* `not_mayUseDecrypt_overlong`: such a class has a routine and is not found.
-/

namespace Cleartext.Archive

open Pattern (decryptDescriptor decryptCalls)

variable {data pattern raw : Bytes} {cf : ClassFile} {p : Pool}

/-! ## Bytes in bytes -/

theorem occurs_iff : occurs pattern data = true ↔ pattern <:+: data := by
  induction data with
  | nil => simp [occurs]
  | cons b rest ih => simp [occurs, ih, List.infix_cons_iff]

/-- The bytes of an entry stand among those of its pool. -/
theorem encode_infix_encode {i : UInt16} {c : Constant} (h : p.get? i = some c) :
    c.encode <:+: p.encode := by
  obtain ⟨before, after, hslots⟩ := List.append_of_mem (Pool.mem_of_get? h)
  rw [Pool.encode, hslots, List.flatMap_append, List.flatMap_cons]
  exact (List.prefix_append _ _).isInfix.trans
    ((List.suffix_append _ _).isInfix.trans (List.suffix_append _ _).isInfix)

theorem encode_infix_image (cf : ClassFile) : cf.pool.encode <:+: cf.image := by
  simp only [ClassFile.image, List.append_assoc]
  refine .trans ?_ (List.suffix_append _ _).isInfix
  refine .trans ?_ (List.suffix_append _ _).isInfix
  refine .trans ?_ (List.suffix_append _ _).isInfix
  exact (List.prefix_append _ _).isInfix

theorem isClass_image (cf : ClassFile) : isClass cf.image = true := by
  rw [isClass, List.isPrefixOf_iff_prefix]
  simp only [ClassFile.image, List.append_assoc]
  exact List.prefix_append _ _

/-! ## Uses of a routine -/

/-- Some method of the class contains a call of a routine that decrypts: a scan finds one
there, whatever barriers it is to keep from. -/
def CallsRoutine (cf : ClassFile) : Prop :=
  ∃ m ∈ cf.methods, ∃ body instructions barriers found, m.body? = some body ∧
    Instruction.decodeAll body.bytecode = .ok instructions ∧
    .ok found ∈ Pattern.scan cf.pool barriers decryptCalls instructions

/-- The class has a method with the descriptor of a routine that decrypts. -/
def DeclaresRoutine (cf : ClassFile) : Prop :=
  ∃ m ∈ cf.methods, m.descriptor cf.pool = decryptDescriptor

/-- The bytes of a text entry of the pool that reads as the descriptor of a routine. -/
def Spells (p : Pool) (raw : Bytes) : Prop :=
  ∃ i, p.get? i = some (.utf8 raw) ∧ p.text i = .ok decryptDescriptor

theorem exists_spells {i : UInt16} (h : p.text i = .ok decryptDescriptor) : ∃ raw, Spells p raw := by
  obtain ⟨raw, units, hget, hunits, htext⟩ := Pool.text_ok.1 h
  exact ⟨raw, i, hget, h⟩

/-- The descriptor of a reference stands in the pool. -/
theorem exists_text_descriptor {i : UInt16} {r : Ref} (h : p.ref i = .ok r) :
    ∃ j, p.text j = .ok r.descriptor := by
  obtain ⟨c, -, hread⟩ := Except.bind_ok.1 h
  cases c with
  | member kind owner nameAndType =>
    obtain ⟨_, -, hread⟩ := Except.bind_ok.1 hread
    obtain ⟨⟨name, descriptor⟩, hnames, hread⟩ := Except.bind_ok.1 hread
    obtain rfl := Except.ok.inj hread
    obtain ⟨c, -, hread⟩ := Except.bind_ok.1 hnames
    cases c with
    | nameAndType nameIndex descriptorIndex =>
      obtain ⟨_, -, hread⟩ := Except.bind_ok.1 hread
      obtain ⟨text, htext, hread⟩ := Except.bind_ok.1 hread
      obtain ⟨-, rfl⟩ := Prod.mk.inj (Except.ok.inj hread)
      exact ⟨descriptorIndex, htext⟩
    | _ => cases hread
  | _ => cases hread

theorem CallsRoutine.spells (h : CallsRoutine cf) : ∃ raw, Spells cf.pool raw := by
  obtain ⟨_, -, _, _, _, _, -, -, hfound⟩ := h
  obtain ⟨_, _, _, _, _, hsite, -⟩ := Pattern.exists_isCallSite hfound
  obtain ⟨-, kind, href⟩ := hsite.calls
  obtain ⟨j, htext⟩ := exists_text_descriptor href
  exact exists_spells htext

theorem DeclaresRoutine.spells (h : DeclaresRoutine cf) : ∃ raw, Spells cf.pool raw := by
  obtain ⟨m, -, hdescriptor⟩ := h
  refine exists_spells (i := m.descriptorIndex) ?_
  unfold Member.descriptor at hdescriptor
  cases htext : cf.pool.text m.descriptorIndex with
  | ok text => rw [← hdescriptor, htext]; rfl
  | error e =>
    have hempty : "" ≠ decryptDescriptor := by decide
    rw [htext] at hdescriptor
    exact absurd hdescriptor hempty

/-! ## Spellings of the descriptor -/

/-- An entry that reads as the descriptor is the one that is searched for, or it takes
more bytes. -/
theorem Spells.eq_or_overlong (h : Spells p raw) :
    Constant.encode (.utf8 raw) = descriptorConstant ∨ decryptDescriptor.length < raw.length := by
  obtain ⟨i, hget, htext⟩ := h
  obtain ⟨raw', units, hget', hunits, hread⟩ := Pool.text_ok.1 htext
  obtain rfl : raw' = raw := by
    rw [hget] at hget'
    exact (Constant.utf8.inj (Option.some.inj hget')).symm
  have hascii : decryptDescriptor.toList.all (·.toNat < 0x80) = true := by decide
  obtain rfl := Units.eq_ofText (by simpa using hascii) hread
  obtain ⟨hle, hsame⟩ := ModifiedUtf8.decode_spelling hunits
  have hlength : (Units.ofText decryptDescriptor).length = decryptDescriptor.length := by decide
  by_cases hlong : decryptDescriptor.length < raw'.length
  · exact .inr hlong
  · left
    have hmap := hsame (by omega)
    have hraw : raw' = Bytes.ofText decryptDescriptor := by
      have hwide : (Bytes.ofText decryptDescriptor).map UInt8.toUInt16 =
          Units.ofText decryptDescriptor := by decide +kernel
      refine (List.map_injective_iff.2 ?_) (hmap.trans hwide.symm)
      exact fun a b hab => UInt8.toUInt16_inj.1 hab
    rw [hraw]
    rfl

/-- A class that calls a routine or has one passes the look at its bytes, unless its pool
spells the descriptor of a routine in overlong forms only. -/
theorem mayUseDecrypt_or_overlong (hparse : ClassFile.parse data = .ok cf)
    (huse : CallsRoutine cf ∨ DeclaresRoutine cf) :
    (∃ raw, Spells cf.pool raw) ∧
      (mayUseDecrypt data = true ∨
        ∀ raw, Spells cf.pool raw → decryptDescriptor.length < raw.length) := by
  refine ⟨huse.elim CallsRoutine.spells DeclaresRoutine.spells, ?_⟩
  obtain ⟨-, -, rfl, -⟩ := ClassFile.parse_ok.1 hparse
  by_cases hplain : ∃ raw, Spells cf.pool raw ∧ Constant.encode (.utf8 raw) = descriptorConstant
  · left
    obtain ⟨raw, ⟨i, hget, -⟩, hencode⟩ := hplain
    have hinfix : descriptorConstant <:+: cf.image := by
      rw [← hencode]
      exact (encode_infix_encode hget).trans (encode_infix_image cf)
    rw [mayUseDecrypt, isClass_image, occurs_iff.2 hinfix]
    rfl
  · right
    intro raw hspells
    exact hspells.eq_or_overlong.resolve_left fun hencode => hplain ⟨raw, hspells, hencode⟩

/-! ## One class in two spellings -/

/-- The slots of the pool of `declaring`. -/
def declaringSlots (descriptor : Bytes) : List (Option Constant) :=
  [none, some (.utf8 [65]), some (.class_ 1), some (.utf8 [100]), some (.utf8 descriptor)]

/-- The class `A` with a method `d`, whose descriptor is spelled in the given bytes. -/
def declaring (descriptor : Bytes) : ClassFile where
  minor := 0
  major := 52
  pool := Pool.ofSlots (declaringSlots descriptor)
  access := 0x0400
  thisClass := 2
  superClass := 0
  interfaces := []
  fields := []
  methods := [⟨0x0401, 3, 4, []⟩]
  attributes := []

theorem parse_declaring (hraw : raw.length < 65536) :
    ClassFile.parse (declaring raw).image = .ok (declaring raw) := by
  have hpool : (declaring raw).pool.Readable := by
    refine ⟨_, rfl, by show 5 < 65536; decide, ?_, ?_, Pool.dangling?_eq_none.1 rfl⟩
    · exact .narrow True.intro rfl <| .narrow True.intro rfl <| .narrow True.intro rfl <|
        .narrow True.intro rfl .nil
    · intro c hc
      simp only [List.mem_cons, Option.some.injEq, List.not_mem_nil, or_false] at hc
      rcases hc with rfl | rfl | rfl | rfl
      · exact (by decide : [65].length < 65536)
      · exact True.intro
      · exact (by decide : [100].length < 65536)
      · exact hraw
  have hnone : Attribute.Readable (declaring raw).pool [] :=
    ⟨by decide, by simp [Attribute.insideAll]⟩
  have hreadable : (declaring raw).Readable := by
    refine ⟨hpool, Nat.zero_lt_succ _, ⟨Nat.zero_lt_succ _, by simp [declaring]⟩,
      ⟨by show 1 < 65536; decide, ?_⟩, hnone⟩
    exact List.forall_mem_singleton.2 hnone
  have hname : (declaring raw).pool.className 2 = .ok "A" := rfl
  exact ClassFile.parse_ok.2 ⟨rfl, hreadable, rfl, "A", hname⟩

theorem spells_declaring
    (hraw : ModifiedUtf8.decode raw = .ok (Units.ofText decryptDescriptor)) :
    Spells (declaring raw).pool raw :=
  ⟨4, rfl, Pool.text_ok.2 ⟨raw, _, rfl, hraw, Units.text_ofText _⟩⟩

theorem declaresRoutine_declaring
    (hraw : ModifiedUtf8.decode raw = .ok (Units.ofText decryptDescriptor)) :
    DeclaresRoutine (declaring raw) := by
  refine ⟨_, List.mem_singleton_self _, ?_⟩
  have htext : (declaring raw).pool.text 4 = .ok decryptDescriptor :=
    Pool.text_ok.2 ⟨raw, _, rfl, hraw, Units.text_ofText _⟩
  rw [Member.descriptor, htext]
  rfl

/-- The descriptor in its shortest form. -/
def plainDescriptor : Bytes := ModifiedUtf8.encode (Units.ofText decryptDescriptor)

/-- The descriptor with its bracket spelled in two bytes. -/
def overlongDescriptor : Bytes := 0xc0 :: 0xa8 :: plainDescriptor.tail

theorem mayUseDecrypt_or_overlong_declaring :
    ClassFile.parse (declaring plainDescriptor).image = .ok (declaring plainDescriptor) ∧
      DeclaresRoutine (declaring plainDescriptor) ∧
      mayUseDecrypt (declaring plainDescriptor).image = true := by
  have hparse : ClassFile.parse (declaring plainDescriptor).image = .ok (declaring plainDescriptor) :=
    parse_declaring (by decide +kernel)
  have hdecode := ModifiedUtf8.decode_encode (Units.ofText decryptDescriptor)
  have hdeclares := declaresRoutine_declaring hdecode
  obtain ⟨-, hfound | hlong⟩ := mayUseDecrypt_or_overlong hparse (.inr hdeclares)
  · exact ⟨hparse, hdeclares, hfound⟩
  · exact absurd (hlong _ (spells_declaring hdecode)) (by decide +kernel)

theorem decode_overlongDescriptor :
    ModifiedUtf8.decode overlongDescriptor = .ok (Units.ofText decryptDescriptor) := by
  have hsome : (ModifiedUtf8.decode overlongDescriptor).toOption =
      some (Units.ofText decryptDescriptor) := by decide +kernel
  cases hdecode : ModifiedUtf8.decode overlongDescriptor with
  | ok units =>
    rw [hdecode] at hsome
    rw [Option.some.inj hsome]
  | error e =>
    rw [hdecode] at hsome
    cases hsome

/-- A class that has a routine and is not found. -/
theorem not_mayUseDecrypt_overlong :
    ClassFile.parse (declaring overlongDescriptor).image = .ok (declaring overlongDescriptor) ∧
      DeclaresRoutine (declaring overlongDescriptor) ∧
      mayUseDecrypt (declaring overlongDescriptor).image = false :=
  ⟨parse_declaring (by decide +kernel), declaresRoutine_declaring decode_overlongDescriptor,
    by decide +kernel⟩

end Cleartext.Archive

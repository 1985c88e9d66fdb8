import Cleartext.Proofs.Class.Format

/-!
# Reading a class and writing it again

`ClassFile.parse` answers a class exactly for the bytes that are written for
it.  `parse_ok` says so: the data is the image of the class, the class is
readable, and its own name can be looked up.  `encode_ok` is the other side:
writing gives the image, unless a body has code of a length that cannot be
written.  Together they give the round trip in both orders.

`ClassFile.allAttributes` lists the attributes of a class wherever they stand:
on its fields and methods, on the class, and nested in a `Code` attribute.
-/

namespace Cleartext

open Reader

/-! ## Members -/

namespace Member

/-- The bytes of a member, whatever the length of the code in it. -/
def image (m : Member) : Bytes :=
  Bytes.ofU16 m.access ++ Bytes.ofU16 m.nameIndex ++ Bytes.ofU16 m.descriptorIndex ++
    Attribute.listImage m.attributes

/-- The bytes of members behind their number. -/
def listImage (members : List Member) : Bytes :=
  Bytes.ofU16 members.length.toUInt16 ++ members.flatMap image

/-- The reader of a member accepts exactly its image. -/
theorem read_ok {pool : Pool} {bound : Nat} {m : Member} {c c' : Cursor}
    (hc : c.rest.length ≤ bound) :
    (read pool (bound + 1)).run c = .ok (m, c') ↔
      Attribute.Readable pool m.attributes ∧ c.Reads m.image c' := by
  simp only [read, image, run_bind_ok, run_pure_ok, run_u16_ok, Cursor.reads_append]
  constructor
  · rintro ⟨access, c₁, h₁, nameIndex, c₂, h₂, descriptorIndex, c₃, h₃, attributes, c₄,
      h₄, rfl, rfl⟩
    have hc₃ := h₃.length_le (h₂.length_le (h₁.length_le hc))
    obtain ⟨hreadable, h₄⟩ :=
      (Attribute.readList_ok pool _ c₃ attributes c₄ (Nat.lt_succ_of_le hc₃)).1 h₄
    exact ⟨hreadable, c₃, ⟨c₂, ⟨c₁, h₁, h₂⟩, h₃⟩, h₄⟩
  · rintro ⟨hreadable, c₃, ⟨c₂, ⟨c₁, h₁, h₂⟩, h₃⟩, h₄⟩
    have hc₃ := h₃.length_le (h₂.length_le (h₁.length_le hc))
    exact ⟨_, c₁, h₁, _, c₂, h₂, _, c₃, h₃, _, c',
      (Attribute.readList_ok pool _ c₃ _ c' (Nat.lt_succ_of_le hc₃)).2 ⟨hreadable, h₄⟩, rfl, rfl⟩

/-- The reader of members accepts exactly their images behind their number. -/
theorem readList_ok {pool : Pool} {bound : Nat} {members : List Member} {c c' : Cursor}
    (hc : c.rest.length ≤ bound) :
    (readList pool (bound + 1)).run c = .ok (members, c') ↔
      (members.length < 65536 ∧ ∀ m ∈ members, Attribute.Readable pool m.attributes) ∧
        c.Reads (listImage members) c' := by
  have hread : ∀ c m c', c.rest.length ≤ bound →
      ((read pool (bound + 1)).run c = .ok (m, c') ↔
        Attribute.Readable pool m.attributes ∧ c.Reads m.image c') :=
    fun c m c' hc => read_ok hc
  have htimes := run_times_ok hread
  rw [readList, run_bind_ok]
  simp only [run_u16_ok, listImage, Cursor.reads_append]
  constructor
  · rintro ⟨n, c₁, hn, h⟩
    obtain ⟨hlen, hreadable, hreads⟩ := (htimes _ c₁ members c' (hn.length_le hc)).1 h
    obtain ⟨hlt, rfl⟩ := Bytes.eq_toNat_u16.1 hlen
    exact ⟨⟨hlt, hreadable⟩, c₁, hn, hreads⟩
  · rintro ⟨⟨hlt, hreadable⟩, c₁, hn, hreads⟩
    refine ⟨_, c₁, hn, ?_⟩
    rw [← Bytes.eq_toNat_u16.2 ⟨hlt, rfl⟩]
    exact (htimes _ c₁ members c' (hn.length_le hc)).2 ⟨rfl, hreadable, hreads⟩

theorem encode_ok {m : Member} {bytes : Bytes} :
    m.encode = .ok bytes ↔ (∀ a ∈ m.attributes, a.Writable) ∧ bytes = m.image := by
  rw [encode, image]
  simp only [Except.bind_ok, Except.pure_ok, Attribute.encodeList_ok]
  constructor
  · rintro ⟨attributes, ⟨hw, rfl⟩, rfl⟩
    exact ⟨hw, rfl⟩
  · rintro ⟨hw, rfl⟩
    exact ⟨_, ⟨hw, rfl⟩, rfl⟩

private theorem encodeMany_ok (members : List Member) (parts : List Bytes) :
    members.mapM encode = .ok parts ↔
      (∀ m ∈ members, ∀ a ∈ m.attributes, a.Writable) ∧ parts = members.map image := by
  rw [Except.mapM_ok]
  simp only [encode_ok]
  induction members generalizing parts with
  | nil => simp
  | cons m rest ih =>
    rw [List.forall₂_cons_left_iff, List.forall_mem_cons, List.map_cons]
    simp only [ih]
    constructor
    · rintro ⟨first, tail, ⟨hm, rfl⟩, ⟨hrest, rfl⟩, rfl⟩
      exact ⟨⟨hm, hrest⟩, rfl⟩
    · rintro ⟨⟨hm, hrest⟩, rfl⟩
      exact ⟨_, _, ⟨hm, rfl⟩, ⟨hrest, rfl⟩, rfl⟩

theorem encodeList_ok {members : List Member} {bytes : Bytes} :
    encodeCounted encode members = .ok bytes ↔
      (∀ m ∈ members, ∀ a ∈ m.attributes, a.Writable) ∧ bytes = listImage members := by
  rw [encodeCounted, listImage]
  simp only [Except.bind_ok, Except.pure_ok, encodeMany_ok]
  constructor
  · rintro ⟨parts, ⟨hw, rfl⟩, rfl⟩
    exact ⟨hw, by rw [List.flatMap_def]⟩
  · rintro ⟨hw, rfl⟩
    exact ⟨_, ⟨hw, rfl⟩, by rw [List.flatMap_def]⟩

end Member

/-! ## Classes -/

namespace ClassFile

/-- The bytes of a class, whatever the length of the code in it. -/
def image (cf : ClassFile) : Bytes :=
  Bytes.ofU32 magic ++ Bytes.ofU16 cf.minor ++ Bytes.ofU16 cf.major ++ cf.pool.encode ++
    Bytes.ofU16 cf.access ++ Bytes.ofU16 cf.thisClass ++ Bytes.ofU16 cf.superClass ++
    Bytes.ofU16 cf.interfaces.length.toUInt16 ++ cf.interfaces.flatMap Bytes.ofU16 ++
    Member.listImage cf.fields ++ Member.listImage cf.methods ++
    Attribute.listImage cf.attributes

/-- Every attribute of a class: of its fields and methods, of the class, and
nested in other attributes. -/
def allAttributes (cf : ClassFile) : List Attribute :=
  cf.fields.flatMap (Attribute.insideAll ·.attributes) ++
    cf.methods.flatMap (Attribute.insideAll ·.attributes) ++
    Attribute.insideAll cf.attributes

/-- What a class has to satisfy to be read, its own name apart. -/
structure Readable (cf : ClassFile) : Prop where
  pool : cf.pool.Readable
  interfaces : cf.interfaces.length < 65536
  fields : cf.fields.length < 65536 ∧
    ∀ m ∈ cf.fields, Attribute.Readable cf.pool m.attributes
  methods : cf.methods.length < 65536 ∧
    ∀ m ∈ cf.methods, Attribute.Readable cf.pool m.attributes
  attributes : Attribute.Readable cf.pool cf.attributes

private theorem readInterfaces_ok {n : Nat} {interfaces : List UInt16} {c c' : Cursor} :
    (Reader.u16.times n).run c = .ok (interfaces, c') ↔
      interfaces.length = n ∧ c.Reads (interfaces.flatMap Bytes.ofU16) c' := by
  have hread : ∀ d v d', d.rest.length ≤ c.rest.length →
      (Reader.u16.run d = .ok (v, d') ↔ True ∧ d.Reads (Bytes.ofU16 v) d') := by
    intro d v d' _
    rw [run_u16_ok, true_and]
  rw [run_times_ok hread n c interfaces c' le_rfl]
  simp

/-- The reader of a class accepts exactly its image. -/
theorem read_ok {bound : Nat} {cf : ClassFile} {c c' : Cursor}
    (hc : c.rest.length ≤ bound) :
    (read (bound + 1)).run c = .ok (cf, c') ↔
      cf.pool = Pool.ofSlots cf.pool.slots.toList ∧ cf.Readable ∧ c.Reads cf.image c' := by
  simp only [image, Cursor.reads_append]
  constructor
  · intro h
    rw [read, run_bind_ok] at h
    obtain ⟨word, c₁, h₁, h⟩ := h
    split at h
    · simp only [run_bind_ok, run_throw_ok, false_and, exists_false] at h
    · rename_i hword
      rw [not_not] at hword
      subst hword
      simp only [run_bind_ok, run_pure_ok, run_u16_ok, run_u32_ok, Pool.read_ok,
        readInterfaces_ok] at h h₁
      obtain ⟨minor, c₂, h₂, major, c₃, h₃, pool, c₄, ⟨hpool, hpoolReadable, h₄⟩, access,
        c₅, h₅, thisClass, c₆, h₆, superClass, c₇, h₇, n, c₈, h₈, interfaces, c₉,
        ⟨hinterfaces, h₉⟩, fields, c₁₀, h₁₀, methods, c₁₁, h₁₁, attributes, c₁₂, h₁₂,
        rfl, rfl⟩ := h
      have hc₄ := h₄.length_le (h₃.length_le (h₂.length_le (h₁.length_le hc)))
      have hc₉ := h₉.length_le (h₈.length_le (h₇.length_le (h₆.length_le (h₅.length_le hc₄))))
      obtain ⟨hfields, h₁₀⟩ := (Member.readList_ok hc₉).1 h₁₀
      have hc₁₀ := h₁₀.length_le hc₉
      obtain ⟨hmethods, h₁₁⟩ := (Member.readList_ok hc₁₀).1 h₁₁
      have hc₁₁ := h₁₁.length_le hc₁₀
      obtain ⟨hattributes, h₁₂⟩ :=
        (Attribute.readList_ok _ _ c₁₁ attributes c₁₂ (Nat.lt_succ_of_le hc₁₁)).1 h₁₂
      obtain ⟨hlt, rfl⟩ := Bytes.eq_toNat_u16.1 hinterfaces
      exact ⟨hpool, ⟨hpoolReadable, hlt, hfields, hmethods, hattributes⟩,
        c₁₁, ⟨c₁₀, ⟨c₉, ⟨c₈, ⟨c₇, ⟨c₆, ⟨c₅, ⟨c₄, ⟨c₃, ⟨c₂, ⟨c₁, h₁, h₂⟩, h₃⟩, h₄⟩, h₅⟩,
          h₆⟩, h₇⟩, h₈⟩, h₉⟩, h₁₀⟩, h₁₁⟩, h₁₂⟩
  · rintro ⟨hpool, hreadable, c₁₁, ⟨c₁₀, ⟨c₉, ⟨c₈, ⟨c₇, ⟨c₆, ⟨c₅, ⟨c₄, ⟨c₃, ⟨c₂, ⟨c₁, h₁,
      h₂⟩, h₃⟩, h₄⟩, h₅⟩, h₆⟩, h₇⟩, h₈⟩, h₉⟩, h₁₀⟩, h₁₁⟩, h₁₂⟩
    have hc₄ := h₄.length_le (h₃.length_le (h₂.length_le (h₁.length_le hc)))
    have hc₉ := h₉.length_le (h₈.length_le (h₇.length_le (h₆.length_le (h₅.length_le hc₄))))
    have hc₁₀ := h₁₀.length_le hc₉
    have hc₁₁ := h₁₁.length_le hc₁₀
    rw [read, run_bind_ok]
    refine ⟨magic, c₁, run_u32_ok.2 h₁, ?_⟩
    rw [if_neg (by simp)]
    simp only [run_bind_ok, run_pure_ok, run_u16_ok, Pool.read_ok, readInterfaces_ok]
    exact ⟨_, c₂, h₂, _, c₃, h₃, _, c₄, ⟨hpool, hreadable.pool, h₄⟩, _, c₅, h₅, _, c₆, h₆,
      _, c₇, h₇, _, c₈, h₈, _, c₉,
      ⟨Bytes.eq_toNat_u16.2 ⟨hreadable.interfaces, rfl⟩, h₉⟩, _, c₁₀,
      (Member.readList_ok hc₉).2 ⟨hreadable.fields, h₁₀⟩, _, c₁₁,
      (Member.readList_ok hc₁₀).2 ⟨hreadable.methods, h₁₁⟩, _, c',
      (Attribute.readList_ok _ _ c₁₁ _ c' (Nat.lt_succ_of_le hc₁₁)).2 ⟨hreadable.attributes, h₁₂⟩,
      rfl, rfl⟩

/-- A class is read from exactly one byte string: its image.  The pool is
indexed anew, and the class has to be readable and to have a name. -/
theorem parse_ok {data : Bytes} {cf : ClassFile} :
    parse data = .ok cf ↔
      cf.pool = Pool.ofSlots cf.pool.slots.toList ∧ cf.Readable ∧ cf.image = data ∧
        ∃ name, cf.pool.className cf.thisClass = .ok name := by
  have hstart : (Cursor.start data).rest.length ≤ data.length := le_rfl
  rw [parse, Except.bind_ok]
  constructor
  · intro h
    obtain ⟨⟨cf', c⟩, hrun, h⟩ := h
    obtain ⟨hpool, hreadable, hreads⟩ := (read_ok hstart).1 hrun
    by_cases hrest : c.rest.isEmpty = true
    · have hdata := ((Cursor.start_reads (List.isEmpty_iff.1 hrest)).1 hreads).1
      simp only [hrest, if_true] at h
      cases hname : cf'.pool.className cf'.thisClass with
      | error e => exact absurd h (by simp [hname, Except.throw_ok])
      | ok name =>
        obtain rfl : cf' = cf := by simpa [hname, Except.pure_ok] using h
        exact ⟨hpool, hreadable, hdata, name, hname⟩
    · simp only [hrest] at h
      exact absurd h (by simp [Except.bind_ok, Except.throw_ok])
  · intro h
    obtain ⟨hpool, hreadable, hdata, name, hname⟩ := h
    have hreads : (Cursor.start data).Reads cf.image ⟨[], data.length, data.length⟩ :=
      (Cursor.start_reads rfl).2 ⟨hdata, rfl⟩
    refine ⟨_, (read_ok hstart).2 ⟨hpool, hreadable, hreads⟩, ?_⟩
    simp only [List.isEmpty_nil, hname]
    rfl

/-- What holds of every attribute of a class. -/
theorem forall_mem_allAttributes {cf : ClassFile} {P : Attribute → Prop} :
    (∀ a ∈ cf.allAttributes, P a) ↔
      (∀ m ∈ cf.fields, ∀ a ∈ Attribute.insideAll m.attributes, P a) ∧
      (∀ m ∈ cf.methods, ∀ a ∈ Attribute.insideAll m.attributes, P a) ∧
      ∀ a ∈ Attribute.insideAll cf.attributes, P a := by
  simp only [allAttributes, List.forall_mem_append, List.forall_mem_flatMap, and_assoc]

/-- Every body of a class has code of a length that can be written. -/
def Writable (cf : ClassFile) : Prop :=
  ∀ a ∈ cf.allAttributes, ∀ body, a.body? = some body → body.Writable

theorem writable_iff {cf : ClassFile} :
    cf.Writable ↔
      (∀ m ∈ cf.fields, ∀ a ∈ m.attributes, a.Writable) ∧
      (∀ m ∈ cf.methods, ∀ a ∈ m.attributes, a.Writable) ∧
      ∀ a ∈ cf.attributes, a.Writable := by
  simp only [Writable, forall_mem_allAttributes, Attribute.insideAll_eq_flatMap,
    List.forall_mem_flatMap, Attribute.Writable]

/-- Writing a class gives its image, unless a body in it has code of a length
that cannot be written. -/
theorem encode_ok {cf : ClassFile} {bytes : Bytes} :
    cf.encode = .ok bytes ↔ cf.Writable ∧ bytes = cf.image := by
  rw [encode, image, writable_iff]
  simp only [Except.bind_ok, Except.pure_ok, Member.encodeList_ok, Attribute.encodeList_ok]
  constructor
  · intro h
    obtain ⟨_, ⟨hfields, rfl⟩, _, ⟨hmethods, rfl⟩, _, ⟨hattributes, rfl⟩, rfl⟩ := h
    exact ⟨⟨hfields, hmethods, hattributes⟩, rfl⟩
  · intro h
    obtain ⟨⟨hfields, hmethods, hattributes⟩, rfl⟩ := h
    exact ⟨_, ⟨hfields, rfl⟩, _, ⟨hmethods, rfl⟩, _, ⟨hattributes, rfl⟩, rfl⟩

theorem not_writable_iff {cf : ClassFile} :
    ¬ cf.Writable ↔ ∃ a ∈ cf.allAttributes, ∃ body, a.body? = some body ∧
      (body.bytecode.length = 0 ∨ 65536 ≤ body.bytecode.length) := by
  simp only [Writable, Body.Writable, not_forall, exists_prop]
  constructor
  · intro h
    obtain ⟨a, ha, body, hbody, hlength⟩ := h
    exact ⟨a, ha, body, hbody, by omega⟩
  · intro h
    obtain ⟨a, ha, body, hbody, hlength⟩ := h
    exact ⟨a, ha, body, hbody, by omega⟩

/-- A class that was read is written back byte for byte, or not at all; and it
is not written exactly when some body in it, wherever it stands, has no code or
65536 bytes of it or more. -/
theorem encode_of_parse {data : Bytes} {cf : ClassFile} (h : parse data = .ok cf) :
    (cf.encode = .ok data ∨ ∃ e, cf.encode = .error e) ∧
      ((∃ e, cf.encode = .error e) ↔
        ∃ a ∈ cf.allAttributes, ∃ body, a.body? = some body ∧
          (body.bytecode.length = 0 ∨ 65536 ≤ body.bytecode.length)) := by
  obtain ⟨-, -, hdata, -⟩ := parse_ok.1 h
  rw [← not_writable_iff]
  cases hencode : cf.encode with
  | ok bytes =>
    obtain ⟨hwritable, rfl⟩ := encode_ok.1 hencode
    exact ⟨.inl (by rw [hdata]), by simp [hwritable]⟩
  | error e =>
    have hnot : ¬ cf.Writable := fun hwritable => by
      have := encode_ok.2 ⟨hwritable, rfl⟩
      rw [hencode] at this
      exact absurd this (by simp)
    exact ⟨.inr ⟨e, rfl⟩, by simp [hnot]⟩

/-- The class `A`, with a `Code` attribute of its own in which the code is
empty. -/
private def withEmptyCode : Bytes :=
  [0xca, 0xfe, 0xba, 0xbe, 0, 0, 0, 52, 0, 4, 1, 0, 1, 65, 7, 0, 1, 1, 0, 4, 67, 111, 100, 101,
   0, 0, 0, 2, 0, 0, 0, 0, 0, 0, 0, 0, 0, 1, 0, 3, 0, 0, 0, 12, 0, 0, 0, 0, 0, 0, 0, 0, 0, 0,
   0, 0]

/-- A class that can be read and not written. -/
theorem encode_of_parse_empty_code :
    ∃ cf, parse withEmptyCode = .ok cf ∧ (∃ e, cf.encode = .error e) ∧
      ∃ a ∈ cf.allAttributes, ∃ body, a.body? = some body ∧
        (body.bytecode.length = 0 ∨ 65536 ≤ body.bytecode.length) := by
  have hrun : ((parse withEmptyCode).toOption.map fun cf => cf.encode.toOption) =
      some none := by
    decide +kernel
  cases hparse : parse withEmptyCode with
  | error e => simp [hparse, Except.toOption] at hrun
  | ok cf =>
    cases hencode : cf.encode with
    | ok bytes => simp [hparse, hencode, Except.toOption] at hrun
    | error e =>
      have herror : ∃ e, cf.encode = .error e := ⟨e, hencode⟩
      exact ⟨cf, rfl, herror, (encode_of_parse hparse).2.1 herror⟩

end ClassFile

end Cleartext

import Cleartext.Class.File
import Cleartext.Proofs.Reading

/-!
# The format of class files

The readers of a class file accept exactly the bytes that are written for
what they answer, piece by piece: constants, the pool, attributes, members and
the class itself.

Two things stand between reading and writing, and each has a name here.

* Every number in the format has a fixed width.  A piece *fits* when its
  counts and lengths do: `Constant.Fits`, `Attribute.Fits`, `Member.Fits`.  The
  readers answer only pieces that fit, and a piece that does not fit is
  written with its numbers cut off.
* A body whose code is empty or longer than 65535 bytes can be read and not
  written.  `Attribute.image` is what would be written for it, and
  `Attribute.encode_ok` says that writing gives the image unless there is such
  a body.

The reader of attributes is given a bound on the nesting of bodies.  A body is
shorter than what it is nested in, so a bound above the number of unread bytes
is never reached; `readList_ok` is the induction on it.
-/

namespace Cleartext

open Reader

/-! ## Constants -/

namespace Constant

/-- A member entry has one of the three member tags. -/
def Proper : Constant → Prop
  | member kind _ _ => kind = .field ∨ kind = .method ∨ kind = .interfaceMethod
  | _ => True

instance : DecidablePred Proper
  | member .. => inferInstanceAs (Decidable (_ ∨ _ ∨ _))
  | utf8 _ | integer _ | float _ | long _ | double _ | class_ _ | string _ | nameAndType ..
  | methodHandle .. | methodType _ | dynamic .. | invokeDynamic .. | module _ | package _ =>
    .isTrue True.intro

/-- The length of a text entry fits the two bytes it is written in. -/
def Fits : Constant → Prop
  | utf8 raw => raw.length < 65536
  | _ => True

private theorem readPayload_sound {index : Nat} {tag : Tag} {k : Constant}
    {c c' : Cursor} (h : (readPayload index tag).run c = .ok (k, c')) :
    k.tag = tag ∧ k.Proper ∧ k.Fits ∧ c.Reads k.payload c' := by
  unfold readPayload at h
  split at h
  case h_15 =>
    split at h
    · rename_i hkind
      simp only [run_bind_ok, run_pure_ok, run_u16_ok] at h
      obtain ⟨v, c₁, hv, w, c₂, hw, rfl, rfl⟩ := h
      have hproper : tag = .field ∨ tag = .method ∨ tag = .interfaceMethod := by
        simpa [or_assoc] using hkind
      exact ⟨rfl, hproper, trivial, Cursor.reads_append.2 ⟨c₁, hv, hw⟩⟩
    · exact (run_throw_ok.1 h).elim
  all_goals simp only [run_bind_ok, run_pure_ok, run_u8_ok, run_u16_ok,
    run_u32_ok, run_u64_ok, run_bytes_ok] at h
  case h_1 =>
    obtain ⟨length, c₁, hlength, raw, c₂, ⟨hlen, hraw⟩, rfl, rfl⟩ := h
    obtain ⟨hlt, rfl⟩ := Bytes.eq_toNat_u16.1 hlen
    exact ⟨rfl, trivial, hlt, Cursor.reads_append.2 ⟨c₁, hlength, hraw⟩⟩
  case h_2 | h_4 =>
    obtain ⟨v, c₁, hv, rfl, rfl⟩ := h
    exact ⟨rfl, trivial, trivial, by simpa [payload] using hv⟩
  case h_3 | h_5 | h_6 | h_7 | h_10 | h_13 | h_14 =>
    obtain ⟨v, c₁, hv, rfl, rfl⟩ := h
    exact ⟨rfl, trivial, trivial, hv⟩
  case h_8 | h_11 | h_12 =>
    obtain ⟨v, c₁, hv, w, c₂, hw, rfl, rfl⟩ := h
    exact ⟨rfl, trivial, trivial, Cursor.reads_append.2 ⟨c₁, hv, hw⟩⟩
  case h_9 =>
    obtain ⟨v, c₁, hv, w, c₂, hw, rfl, rfl⟩ := h
    exact ⟨rfl, trivial, trivial, Cursor.reads_cons.2 ⟨c₁, hv, hw⟩⟩

private theorem readPayload_member (index : Nat) {kind : Tag}
    (h : kind = .field ∨ kind = .method ∨ kind = .interfaceMethod) :
    readPayload index kind =
      (do return member kind (← Reader.u16) (← Reader.u16) : Reader Constant) := by
  rcases h with rfl | rfl | rfl <;> rfl

private theorem readPayload_complete (index : Nat) {k : Constant}
    {c c' : Cursor} (hproper : k.Proper) (hfits : k.Fits)
    (h : c.Reads k.payload c') :
    (readPayload index k.tag).run c = .ok (k, c') := by
  cases k with
  | utf8 raw =>
    obtain ⟨c₁, hlength, hraw⟩ := Cursor.reads_append.1 h
    simp only [tag, readPayload, run_bind_ok, run_pure_ok, run_u16_ok, run_bytes_ok]
    exact ⟨_, c₁, hlength, raw, c', ⟨Bytes.eq_toNat_u16.2 ⟨hfits, rfl⟩, hraw⟩, rfl, rfl⟩
  | integer v | long v =>
    simp only [tag, readPayload, run_bind_ok, run_pure_ok, run_u32_ok, run_u64_ok]
    exact ⟨_, c', h, by simp, rfl⟩
  | float v | double v | class_ v | string v | methodType v | module v | package v =>
    simp only [tag, readPayload, run_bind_ok, run_pure_ok, run_u16_ok,
      run_u32_ok, run_u64_ok]
    exact ⟨_, c', h, rfl, rfl⟩
  | nameAndType v w | dynamic v w | invokeDynamic v w =>
    obtain ⟨c₁, hv, hw⟩ := Cursor.reads_append.1 h
    simp only [tag, readPayload, run_bind_ok, run_pure_ok, run_u16_ok]
    exact ⟨_, c₁, hv, _, c', hw, rfl, rfl⟩
  | methodHandle v w =>
    obtain ⟨c₁, hv, hw⟩ := Cursor.reads_cons.1 h
    simp only [tag, readPayload, run_bind_ok, run_pure_ok, run_u8_ok, run_u16_ok]
    exact ⟨_, c₁, hv, _, c', hw, rfl, rfl⟩
  | member kind v w =>
    obtain ⟨c₁, hv, hw⟩ := Cursor.reads_append.1 h
    rw [tag, readPayload_member index hproper]
    simp only [run_bind_ok, run_pure_ok, run_u16_ok]
    exact ⟨_, c₁, hv, _, c', hw, rfl, rfl⟩

/-- The reader of an entry accepts exactly the bytes of an entry with the tag
that it was given. -/
theorem readPayload_ok {index : Nat} {tag : Tag} {k : Constant} {c c' : Cursor} :
    (readPayload index tag).run c = .ok (k, c') ↔
      k.tag = tag ∧ k.Proper ∧ k.Fits ∧ c.Reads k.payload c' := by
  constructor
  · exact readPayload_sound
  · rintro ⟨rfl, hproper, hfits, hreads⟩
    exact readPayload_complete index hproper hfits hreads

end Constant

/-! ## The pool -/

namespace Pool

/-- The slots behind slot zero: an entry that takes two slots is followed by
an empty one, and no other slot is empty. -/
inductive Laid : List (Option Constant) → Prop
  | nil : Laid []
  | narrow {c : Constant} {rest : List (Option Constant)} (hproper : c.Proper)
      (hwidth : c.tag.isWide = false) (hrest : Laid rest) : Laid (some c :: rest)
  | wide {c : Constant} {rest : List (Option Constant)} (hproper : c.Proper)
      (hwidth : c.tag.isWide = true) (hrest : Laid rest) :
      Laid (some c :: none :: rest)

theorem laid_of_narrow {constants : List Constant}
    (h : ∀ c ∈ constants, c.Proper ∧ c.tag.isWide = false) : Laid (constants.map some) := by
  induction constants with
  | nil => exact .nil
  | cons c rest ih =>
    obtain ⟨⟨hproper, hwidth⟩, hrest⟩ := List.forall_mem_cons.1 h
    exact .narrow hproper hwidth (ih hrest)

/-- Every entry of some slots fits. -/
def SlotsFit (slots : List (Option Constant)) : Prop :=
  ∀ c, some c ∈ slots → c.Fits

/-- The bytes of slots. -/
def image (slots : List (Option Constant)) : Bytes :=
  slots.flatMap fun slot => (slot.map Constant.encode).getD []

@[simp] theorem image_some (c : Constant) (rest : List (Option Constant)) :
    image (some c :: rest) = c.tag.code :: (c.payload ++ image rest) := by
  simp [image, Constant.encode]

@[simp] theorem image_none (rest : List (Option Constant)) :
    image (none :: rest) = image rest := by
  simp [image]

theorem slotsFit_some {c : Constant} {rest : List (Option Constant)} :
    SlotsFit (some c :: rest) ↔ c.Fits ∧ SlotsFit rest := by
  simp [SlotsFit]

theorem slotsFit_none {rest : List (Option Constant)} :
    SlotsFit (none :: rest) ↔ SlotsFit rest := by
  simp [SlotsFit]

private theorem readSlots_sound : ∀ (n index : Nat) (c : Cursor)
    (slots : List (Option Constant)) (c' : Cursor),
    (readSlots index n).run c = .ok (slots, c') →
      slots.length = n ∧ Laid slots ∧ SlotsFit slots ∧ c.Reads (image slots) c' := by
  intro n
  induction n using Nat.strongRecOn with
  | ind n ih =>
    intro index c slots c'' h
    cases n with
    | zero =>
      rw [readSlots, run_pure_ok] at h
      obtain ⟨rfl, rfl⟩ := h
      exact ⟨rfl, .nil, by simp [SlotsFit], Cursor.reads_nil.2 rfl⟩
    | succ n =>
      rw [readSlots, run_bind_ok] at h
      obtain ⟨code, c₁, hcode, h⟩ := h
      rw [run_u8_ok] at hcode
      by_cases hwide : (⟨code⟩ : Tag).isWide = true
      · cases n with
        | zero =>
          -- A wide entry needs a second slot.
          simp only [hwide, if_true] at h
          exact (run_throw_ok.1 h).elim
        | succ n =>
          simp only [hwide, if_true, run_bind_ok, run_pure_ok] at h
          obtain ⟨k, c₂, hk, rest, c₃, hrest, rfl, rfl⟩ := h
          obtain ⟨htag, hproper, hfits, hpayload⟩ := Constant.readPayload_ok.1 hk
          obtain ⟨hlen, hlaid, hrestFits, hreads⟩ := ih n (by omega) _ _ _ _ hrest
          rw [← htag] at hwide
          refine ⟨by simp [hlen], .wide hproper hwide hlaid, ?_, ?_⟩
          · exact slotsFit_some.2 ⟨hfits, slotsFit_none.2 hrestFits⟩
          · rw [image_some, image_none, htag]
            exact Cursor.reads_cons.2 ⟨c₁, hcode,
              Cursor.reads_append.2 ⟨c₂, hpayload, hreads⟩⟩
      · have hread : ∃ k c₂, (Constant.readPayload index ⟨code⟩).run c₁ = .ok (k, c₂) ∧
            ∃ rest c₃, (readSlots (index + 1) n).run c₂ = .ok (rest, c₃) ∧
              some k :: rest = slots ∧ c₃ = c'' := by
          cases n <;>
            simpa only [hwide, if_false, Bool.false_eq_true, run_bind_ok, run_pure_ok] using h
        obtain ⟨k, c₂, hk, rest, c₃, hrest, rfl, rfl⟩ := hread
        obtain ⟨htag, hproper, hfits, hpayload⟩ := Constant.readPayload_ok.1 hk
        obtain ⟨hlen, hlaid, hrestFits, hreads⟩ := ih n (by omega) _ _ _ _ hrest
        rw [← htag, Bool.not_eq_true] at hwide
        refine ⟨by simp [hlen], .narrow hproper hwide hlaid, ?_, ?_⟩
        · exact slotsFit_some.2 ⟨hfits, hrestFits⟩
        · rw [image_some, htag]
          exact Cursor.reads_cons.2 ⟨c₁, hcode,
            Cursor.reads_append.2 ⟨c₂, hpayload, hreads⟩⟩

private theorem readSlots_complete {slots : List (Option Constant)}
    (hlaid : Laid slots) : ∀ (index : Nat) (c c' : Cursor),
    SlotsFit slots → c.Reads (image slots) c' →
      (readSlots index slots.length).run c = .ok (slots, c') := by
  induction hlaid with
  | nil =>
    intro index c c' _ hreads
    exact run_pure_ok.2 ⟨rfl, Cursor.reads_nil.1 hreads⟩
  | @narrow k rest hproper hwidth hrest ih =>
    intro index c c' hfits hreads
    obtain ⟨hk, hrestFits⟩ := slotsFit_some.1 hfits
    rw [image_some] at hreads
    obtain ⟨c₁, hcode, hreads⟩ := Cursor.reads_cons.1 hreads
    obtain ⟨c₂, hpayload, hreads⟩ := Cursor.reads_append.1 hreads
    rw [List.length_cons, readSlots, run_bind_ok]
    refine ⟨k.tag.code, c₁, run_u8_ok.2 hcode, ?_⟩
    rw [if_neg (by rw [Bool.not_eq_true]; exact hwidth)]
    simp only [run_bind_ok, run_pure_ok]
    exact ⟨k, c₂, Constant.readPayload_ok.2 ⟨rfl, hproper, hk, hpayload⟩, rest, c',
      ih _ _ _ hrestFits hreads, rfl, rfl⟩
  | @wide k rest hproper hwidth hrest ih =>
    intro index c c' hfits hreads
    obtain ⟨hk, hrestFits⟩ := slotsFit_some.1 hfits
    rw [image_some, image_none] at hreads
    obtain ⟨c₁, hcode, hreads⟩ := Cursor.reads_cons.1 hreads
    obtain ⟨c₂, hpayload, hreads⟩ := Cursor.reads_append.1 hreads
    rw [List.length_cons, List.length_cons, readSlots, run_bind_ok]
    refine ⟨k.tag.code, c₁, run_u8_ok.2 hcode, ?_⟩
    rw [if_pos (by exact hwidth)]
    simp only [run_bind_ok, run_pure_ok]
    exact ⟨k, c₂, Constant.readPayload_ok.2 ⟨rfl, hproper, hk, hpayload⟩, rest, c',
      ih _ _ _ (slotsFit_none.1 hrestFits) hreads, rfl, rfl⟩

/-- The reader of slots accepts exactly the bytes of slots that are laid out
and fit. -/
theorem readSlots_ok {n index : Nat} {slots : List (Option Constant)} {c c' : Cursor} :
    (readSlots index n).run c = .ok (slots, c') ↔
      slots.length = n ∧ Laid slots ∧ SlotsFit slots ∧ c.Reads (image slots) c' := by
  constructor
  · exact readSlots_sound n index c slots c'
  · rintro ⟨rfl, hlaid, hfits, hreads⟩
    exact readSlots_complete hlaid index c c' hfits hreads

/-- Every reference of an entry names an entry. -/
def Closed (p : Pool) : Prop :=
  ∀ c, some c ∈ p.slots.toList → ∀ r ∈ c.references, (p.get? r).isSome

/-- No reference is found to dangle exactly when the pool is closed. -/
theorem dangling?_eq_none {p : Pool} : p.dangling? = none ↔ p.Closed := by
  rw [dangling?, List.findSome?_eq_none_iff]
  constructor
  · intro h c hc r hr
    obtain ⟨i, hi, hget⟩ := List.getElem_of_mem hc
    have hmem : (some c, i) ∈ p.slots.toList.zipIdx := by
      rw [List.mem_zipIdx_iff_getElem?, List.getElem?_eq_getElem hi, hget]
    have hnone := h _ hmem
    simp only [Option.bind_eq_bind, Option.bind_some, Option.bind_eq_none_iff,
      Option.pure_def, reduceCtorEq, imp_false] at hnone
    by_contra hdangling
    have hfind : (c.references.find? fun r => (p.get? r).isNone).isSome := by
      rw [List.find?_isSome]
      exact ⟨r, hr, by simpa using hdangling⟩
    obtain ⟨x, hx⟩ := Option.isSome_iff_exists.1 hfind
    exact hnone x hx
  · rintro hclosed ⟨slot, i⟩ hmem
    cases slot with
    | none => rfl
    | some c =>
      have hc : some c ∈ p.slots.toList := by
        rw [List.mem_zipIdx_iff_getElem?] at hmem
        exact List.mem_of_getElem? hmem
      have hfind : (c.references.find? fun r => (p.get? r).isNone) = none := by
        rw [List.find?_eq_none]
        intro r hr
        rw [Option.isNone_iff_eq_none, ← Option.not_isSome_iff_eq_none, not_not]
        exact hclosed c hc r hr
      simp [hfind]

/-- What a pool has to satisfy to be read: slot zero is empty, the slots behind
it are laid out and fit, and their number does too. -/
def Readable (p : Pool) : Prop :=
  ∃ slots, p.slots.toList = none :: slots ∧ p.count < 65536 ∧ Laid slots ∧
    SlotsFit slots ∧ p.Closed

theorem encode_eq {p : Pool} {slots : List (Option Constant)}
    (h : p.slots.toList = none :: slots) :
    p.encode = Bytes.ofU16 p.count.toUInt16 ++ image slots := by
  rw [encode, h, ← image, image_none]

theorem count_eq {p : Pool} {slots : List (Option Constant)}
    (h : p.slots.toList = none :: slots) : p.count = slots.length + 1 := by
  rw [count, ← Array.length_toList, h, List.length_cons]

/-- The reader of a pool accepts exactly the bytes of readable pools, and
indexes the entries anew. -/
theorem read_ok {p : Pool} {c c' : Cursor} :
    Pool.read.run c = .ok (p, c') ↔
      p = ofSlots p.slots.toList ∧ p.Readable ∧ c.Reads p.encode c' := by
  rw [Pool.read, run_bind_ok]
  constructor
  · rintro ⟨n, c₁, hn, h⟩
    rw [run_u16_ok] at hn
    split at h
    · exact (run_throw_ok.1 h).elim
    · rename_i m hm
      rw [run_bind_ok] at h
      obtain ⟨slots, c₂, hslots, h⟩ := h
      obtain ⟨hlen, hlaid, hfits, hreads⟩ := readSlots_ok.1 hslots
      simp only at h
      split at h
      · exact (run_throw_ok.1 h).elim
      · rename_i hdangling
        obtain ⟨rfl, rfl⟩ := run_pure_ok.1 h
        have hlist : (ofSlots (none :: slots)).slots.toList = none :: slots := rfl
        have hcount : (ofSlots (none :: slots)).count = n.toNat := by
          rw [count_eq hlist, hlen, hm]
        obtain ⟨hlt, hword⟩ := Bytes.eq_toNat_u16.1 hcount
        refine ⟨rfl, ⟨slots, hlist, hlt, hlaid, hfits, dangling?_eq_none.1 hdangling⟩, ?_⟩
        rw [encode_eq hlist, hword]
        exact Cursor.reads_append.2 ⟨c₁, hn, hreads⟩
  · rintro ⟨hp, ⟨slots, hlist, hlt, hlaid, hfits, hclosed⟩, hreads⟩
    rw [encode_eq hlist] at hreads
    obtain ⟨c₁, hn, hreads⟩ := Cursor.reads_append.1 hreads
    refine ⟨_, c₁, run_u16_ok.2 hn, ?_⟩
    rw [← Bytes.eq_toNat_u16.2 ⟨hlt, rfl⟩, count_eq hlist]
    simp only [run_bind_ok]
    refine ⟨slots, c', readSlots_ok.2 ⟨rfl, hlaid, hfits, hreads⟩, ?_⟩
    rw [← hlist, ← hp, dangling?_eq_none.2 hclosed]
    exact run_pure_ok.2 ⟨rfl, rfl⟩

end Pool

/-! ## Attributes -/

/-- The bytes of a method body in front of its attributes. -/
def Body.head {α : Type} (body : Body α) : Bytes :=
  Bytes.ofU16 body.maxStack ++ Bytes.ofU16 body.maxLocals ++
    Bytes.ofU32 body.bytecode.length.toUInt32 ++ body.bytecode ++
    Bytes.ofU16 body.handlers.length.toUInt16 ++ body.handlers.flatMap Handler.encode

/-- The length of the code is one that can be written. -/
def Body.Writable {α : Type} (body : Body α) : Prop :=
  0 < body.bytecode.length ∧ body.bytecode.length < 65536

namespace Attribute

/-- An attribute with its name in front of its bytes. -/
def framed (nameIndex : UInt16) (info : Bytes) : Bytes :=
  Bytes.ofU16 nameIndex ++ Bytes.ofU32 info.length.toUInt32 ++ info

mutual

/-- The bytes of an attribute, whatever the length of the code in it. -/
def image : Attribute → Bytes
  | raw i _ info => framed i info
  | code i _ ⟨maxStack, maxLocals, bytecode, handlers, attributes⟩ =>
    framed i (Body.head ⟨maxStack, maxLocals, bytecode, handlers, attributes⟩ ++
      (Bytes.ofU16 attributes.length.toUInt16 ++ images attributes))

/-- The bytes of attributes one after another. -/
def images : List Attribute → Bytes
  | [] => []
  | a :: rest => a.image ++ images rest

end

mutual

/-- An attribute and all attributes that are nested in it. -/
def inside : Attribute → List Attribute
  | raw i name info => [raw i name info]
  | code i name ⟨maxStack, maxLocals, bytecode, handlers, attributes⟩ =>
    code i name ⟨maxStack, maxLocals, bytecode, handlers, attributes⟩ :: insideAll attributes

/-- Attributes and all attributes that are nested in them. -/
def insideAll : List Attribute → List Attribute
  | [] => []
  | a :: rest => a.inside ++ insideAll rest

end

/-- The bytes of an attribute behind its name and length. -/
def content : Attribute → Bytes
  | raw _ _ info => info
  | code _ _ body =>
    body.head ++ (Bytes.ofU16 body.attributes.length.toUInt16 ++ images body.attributes)

/-- The attribute carries the name that the pool gives it, and it is taken
apart exactly when that name is `Code`. -/
def Named (pool : Pool) (a : Attribute) : Prop :=
  pool.text a.nameIndex = .ok a.name ∧ (a.body?.isSome ↔ a.name = "Code")

/-- The counts and lengths of an attribute fit the words they are written in;
what is nested in it is not looked at. -/
def Fits (a : Attribute) : Prop :=
  a.content.length < 4294967296 ∧
    ∀ body, a.body? = some body →
      body.handlers.length < 65536 ∧ body.attributes.length < 65536

/-- Induction over the nesting of attributes. -/
theorem induction {P : Attribute → Prop}
    (hraw : ∀ i name info, P (raw i name info))
    (hcode : ∀ i name body, (∀ a ∈ body.attributes, P a) → P (code i name body)) :
    ∀ a, P a :=
  @Attribute.rec P (fun body => ∀ a ∈ body.attributes, P a)
    (fun attributes => ∀ a ∈ attributes, P a) hraw hcode
    (fun _ _ _ _ _ ih => ih) (by simp)
    (fun _ _ ihHead ihTail => List.forall_mem_cons.2 ⟨ihHead, ihTail⟩)

theorem image_eq (a : Attribute) : a.image = framed a.nameIndex a.content := by
  cases a with
  | raw i name info => rw [image]; rfl
  | code i name body => rw [image]; rfl

theorem insideAll_eq_flatMap (attributes : List Attribute) :
    insideAll attributes = attributes.flatMap inside := by
  induction attributes with
  | nil => rfl
  | cons a rest ih => rw [insideAll, ih, List.flatMap_cons]

theorem inside_raw (i : UInt16) (name : String) (info : Bytes) :
    (raw i name info).inside = [raw i name info] := by
  rw [inside]

theorem inside_code (i : UInt16) (name : String) (body : MethodBody) :
    (code i name body).inside = code i name body :: insideAll body.attributes := by
  rw [inside]

theorem self_mem_inside (a : Attribute) : a ∈ a.inside := by
  cases a with
  | raw i name info => rw [inside_raw]; exact List.mem_singleton_self _
  | code i name body => rw [inside_code]; exact List.mem_cons_self

theorem mem_insideAll {a : Attribute} {attributes : List Attribute} :
    a ∈ insideAll attributes ↔ ∃ b ∈ attributes, a ∈ b.inside := by
  rw [insideAll_eq_flatMap, List.mem_flatMap]

/-! ### Writing attributes -/

/-- Every body in an attribute has code of a length that can be written. -/
def Writable (a : Attribute) : Prop :=
  ∀ b ∈ a.inside, ∀ body, b.body? = some body → body.Writable

theorem writable_code {i : UInt16} {name : String} {body : MethodBody} :
    (code i name body).Writable ↔
      body.Writable ∧ ∀ a ∈ body.attributes, a.Writable := by
  simp only [Writable, inside_code, List.mem_cons, mem_insideAll]
  constructor
  · intro h
    exact ⟨h _ (.inl rfl) body rfl, fun a ha b hb => h b (.inr ⟨a, ha, hb⟩)⟩
  · rintro ⟨hbody, hnested⟩ b (rfl | ⟨a, ha, hb⟩) body' hb'
    · obtain rfl : body = body' := Option.some.inj hb'
      exact hbody
    · exact hnested a ha b hb body' hb'

theorem writable_raw (i : UInt16) (name : String) (info : Bytes) :
    (raw i name info).Writable := by
  intro b hb body hbody
  rw [inside_raw, List.mem_singleton] at hb
  subst hb
  exact absurd hbody (by simp [body?])

private theorem encodeMany_ok_of {attributes : List Attribute}
    (h : ∀ a ∈ attributes, ∀ bytes, a.encode = .ok bytes ↔
      a.Writable ∧ bytes = a.image) :
    ∀ bytes, encodeMany attributes = .ok bytes ↔
      (∀ a ∈ attributes, a.Writable) ∧ bytes = images attributes := by
  induction attributes with
  | nil =>
    intro bytes
    simp [encodeMany, images, eq_comm]
  | cons a rest ih =>
    intro bytes
    have ha := h a List.mem_cons_self
    have hrest := ih fun b hb => h b (List.mem_cons_of_mem a hb)
    rw [encodeMany, images, List.forall_mem_cons]
    simp only [Except.bind_ok, Except.pure_ok, ha, hrest]
    constructor
    · rintro ⟨first, ⟨hwa, rfl⟩, tail, ⟨hwr, rfl⟩, rfl⟩
      exact ⟨⟨hwa, hwr⟩, rfl⟩
    · rintro ⟨⟨hwa, hwr⟩, rfl⟩
      exact ⟨_, ⟨hwa, rfl⟩, _, ⟨hwr, rfl⟩, rfl⟩

/-- Writing an attribute gives its image, unless a body in it has code of a
length that cannot be written. -/
theorem encode_ok (a : Attribute) :
    ∀ bytes, a.encode = .ok bytes ↔ a.Writable ∧ bytes = a.image := by
  induction a using Attribute.induction with
  | hraw i name info =>
    intro bytes
    rw [encode, image]
    simp [writable_raw, framed, eq_comm]
  | hcode i name body ih =>
    obtain ⟨maxStack, maxLocals, bytecode, handlers, attributes⟩ := body
    intro bytes
    have hmany := encodeMany_ok_of ih
    rw [encode, image, writable_code]
    by_cases hlength : bytecode.length = 0 ∨ 65536 ≤ bytecode.length
    · rw [if_pos (by simpa using hlength)]
      simp only [Except.bind_ok, Except.throw_ok, false_and, exists_false, false_iff]
      rintro ⟨⟨⟨hpos, hlt⟩, -⟩, -⟩
      simp only at hpos hlt
      omega
    · rw [if_neg (by simpa using hlength)]
      have hbody : Body.Writable
          ⟨maxStack, maxLocals, bytecode, handlers, attributes⟩ := by
        constructor <;> simp only <;> omega
      simp only [Except.bind_ok, Except.pure_ok, hmany, hbody, true_and]
      constructor
      · rintro ⟨nested, ⟨hw, rfl⟩, rfl⟩
        exact ⟨hw, by simp [framed, Body.head]⟩
      · rintro ⟨hw, rfl⟩
        exact ⟨_, ⟨hw, rfl⟩, by simp [framed, Body.head]⟩

theorem encodeMany_ok (attributes : List Attribute) (bytes : Bytes) :
    encodeMany attributes = .ok bytes ↔
      (∀ a ∈ attributes, a.Writable) ∧ bytes = images attributes :=
  encodeMany_ok_of (fun a _ => encode_ok a) bytes

/-- The bytes of a list of attributes behind its length. -/
def listImage (attributes : List Attribute) : Bytes :=
  Bytes.ofU16 attributes.length.toUInt16 ++ images attributes

theorem encodeList_ok (attributes : List Attribute) (bytes : Bytes) :
    encodeList attributes = .ok bytes ↔
      (∀ a ∈ attributes, a.Writable) ∧ bytes = listImage attributes := by
  rw [encodeList, listImage]
  simp only [Except.bind_ok, Except.pure_ok, encodeMany_ok]
  constructor
  · rintro ⟨nested, ⟨hw, rfl⟩, rfl⟩
    exact ⟨hw, rfl⟩
  · rintro ⟨hw, rfl⟩
    exact ⟨_, ⟨hw, rfl⟩, rfl⟩

/-! ### Reading attributes -/

theorem readHandler_ok {h : Handler} {c c' : Cursor} :
    readHandler.run c = .ok (h, c') ↔ c.Reads h.encode c' := by
  simp only [readHandler, Handler.encode, run_bind_ok, run_pure_ok, run_u16_ok,
    Cursor.reads_append]
  constructor
  · rintro ⟨start, c₁, h₁, stop, c₂, h₂, target, c₃, h₃, catchType, c₄, h₄, rfl, rfl⟩
    exact ⟨c₃, ⟨c₂, ⟨c₁, h₁, h₂⟩, h₃⟩, h₄⟩
  · rintro ⟨c₃, ⟨c₂, ⟨c₁, h₁, h₂⟩, h₃⟩, h₄⟩
    exact ⟨_, c₁, h₁, _, c₂, h₂, _, c₃, h₃, _, c', h₄, rfl, rfl⟩

theorem readHandlers_ok {n : Nat} {handlers : List Handler} {c c' : Cursor} :
    (readHandler.times n).run c = .ok (handlers, c') ↔
      handlers.length = n ∧ c.Reads (handlers.flatMap Handler.encode) c' := by
  have hread : ∀ d h d', d.rest.length ≤ c.rest.length →
      (readHandler.run d = .ok (h, d') ↔ True ∧ d.Reads h.encode d') := by
    intro d h d' _
    rw [readHandler_ok, true_and]
  rw [run_times_ok hread n c handlers c' le_rfl]
  simp

/-- The reader of the part of a body in front of its attributes. -/
theorem readBodyHead_ok {make : List Attribute → MethodBody} {c c' : Cursor} :
    readBodyHead.run c = .ok (make, c') ↔
      ∃ maxStack maxLocals bytecode handlers,
        make = (fun attributes => ⟨maxStack, maxLocals, bytecode, handlers, attributes⟩) ∧
        bytecode.length < 4294967296 ∧ handlers.length < 65536 ∧
        c.Reads (make []).head c' := by
  simp only [readBodyHead, run_bind_ok, run_pure_ok, run_u16_ok, run_u32_ok,
    run_bytes_ok, readHandlers_ok]
  constructor
  · rintro ⟨maxStack, c₁, h₁, maxLocals, c₂, h₂, length, c₃, h₃, bytecode, c₄,
      ⟨hlength, h₄⟩, rows, c₅, h₅, handlers, c₆, ⟨hrows, h₆⟩, rfl, rfl⟩
    obtain ⟨hlt, rfl⟩ := Bytes.eq_toNat_u32.1 hlength
    obtain ⟨hlt', rfl⟩ := Bytes.eq_toNat_u16.1 hrows
    refine ⟨maxStack, maxLocals, bytecode, handlers, rfl, hlt, hlt', ?_⟩
    simp only [Body.head, Cursor.reads_append]
    exact ⟨c₅, ⟨c₄, ⟨c₃, ⟨c₂, ⟨c₁, h₁, h₂⟩, h₃⟩, h₄⟩, h₅⟩, h₆⟩
  · rintro ⟨maxStack, maxLocals, bytecode, handlers, rfl, hlt, hlt', hreads⟩
    simp only [Body.head, Cursor.reads_append] at hreads
    obtain ⟨c₅, ⟨c₄, ⟨c₃, ⟨c₂, ⟨c₁, h₁, h₂⟩, h₃⟩, h₄⟩, h₅⟩, h₆⟩ := hreads
    exact ⟨_, c₁, h₁, _, c₂, h₂, _, c₃, h₃, bytecode, c₄,
      ⟨Bytes.eq_toNat_u32.2 ⟨hlt, rfl⟩, h₄⟩, _, c₅, h₅, handlers, c',
      ⟨Bytes.eq_toNat_u16.2 ⟨hlt', rfl⟩, h₆⟩, rfl, rfl⟩

/-- What a list of attributes has to satisfy to be read: its length fits, and
every attribute in it, nested ones included, fits and is named. -/
def Readable (pool : Pool) (attributes : List Attribute) : Prop :=
  attributes.length < 65536 ∧ ∀ a ∈ insideAll attributes, a.Named pool ∧ a.Fits

/-- The answer of a reader for the attributes of a body, on at most `bound`
bytes. -/
def ReadsLists (pool : Pool) (bound : Nat) (nested : Reader (List Attribute)) : Prop :=
  ∀ c attributes c', c.rest.length < bound →
    (nested.run c = .ok (attributes, c') ↔
      Readable pool attributes ∧ c.Reads (listImage attributes) c')

/-- The reader of a body accepts exactly the content of a `Code` attribute. -/
theorem readBody_ok {pool : Pool} {bound : Nat} {nested : Reader (List Attribute)}
    (hnested : ReadsLists pool bound nested) {info : Bytes} {body : MethodBody}
    (hbound : info.length < bound) (i : UInt16) (name : String) :
    readBody nested info = .ok body ↔
      info = (code i name body).content ∧ body.bytecode.length < 4294967296 ∧
        body.handlers.length < 65536 ∧ Readable pool body.attributes := by
  have hread : ∀ c body c', c.rest.length < bound →
      ((do
        let head ← readBodyHead
        return head (← nested) : Reader MethodBody).run c = .ok (body, c') ↔
      (body.bytecode.length < 4294967296 ∧ body.handlers.length < 65536 ∧
        Readable pool body.attributes) ∧ c.Reads (code i name body).content c') := by
    intro c body c' hc
    simp only [run_bind_ok, run_pure_ok, readBodyHead_ok, content, Cursor.reads_append]
    constructor
    · rintro ⟨_, c₁, ⟨maxStack, maxLocals, bytecode, handlers, rfl, hlt, hlt', h₁⟩,
        attributes, c₂, h₂, rfl, rfl⟩
      have := h₁.length_rest
      obtain ⟨hreadable, h₂⟩ := (hnested c₁ attributes c₂ (by omega)).1 h₂
      exact ⟨⟨hlt, hlt', hreadable⟩, c₁, h₁, Cursor.reads_append.1 h₂⟩
    · rintro ⟨⟨hlt, hlt', hreadable⟩, c₁, h₁, h₂⟩
      have := h₁.length_rest
      refine ⟨_, c₁, ⟨_, _, _, _, rfl, hlt, hlt', h₁⟩, body.attributes, c',
        (hnested c₁ _ c' (by omega)).2 ⟨hreadable, Cursor.reads_append.2 h₂⟩, rfl, rfl⟩
  have hstart : (Cursor.start info).rest.length < bound := hbound
  rw [readBody]
  simp only [Reader.runOn]
  constructor
  · intro h
    split at h
    · exact absurd h (by simp)
    · rename_i body' c' hrun
      split at h
      · rename_i hempty
        obtain rfl : body' = body := by simpa using h
        obtain ⟨hfits, hreads⟩ := (hread _ body' c' hstart).1 hrun
        obtain ⟨hinfo, -⟩ := (Cursor.start_reads (List.isEmpty_iff.1 hempty)).1 hreads
        exact ⟨hinfo.symm, hfits⟩
      · exact absurd h (by simp)
  · rintro ⟨hinfo, hfits⟩
    have hreads : (Cursor.start info).Reads (code i name body).content
        ⟨[], info.length, info.length⟩ :=
      (Cursor.start_reads rfl).2 ⟨hinfo.symm, rfl⟩
    rw [(hread _ body _ hstart).2 ⟨hfits, hreads⟩]
    rfl

/-- The attribute with the given name and content, taken apart when it is a
`Code` attribute. -/
def takeApart (nested : Reader (List Attribute)) (i : UInt16) (name : String)
    (info : Bytes) : Except Error Attribute :=
  if name = "Code" then code i name <$> readBody nested info else .ok (raw i name info)

/-- An attribute is taken apart into what it is made of. -/
theorem takeApart_ok {pool : Pool} {bound : Nat} {nested : Reader (List Attribute)}
    (hnested : ReadsLists pool bound nested) {i : UInt16} {name : String} {info : Bytes}
    {a : Attribute} (hbound : info.length < bound) :
    takeApart nested i name info = .ok a ↔
      a.nameIndex = i ∧ a.name = name ∧ a.content = info ∧
        (a.body?.isSome ↔ name = "Code") ∧
        ∀ body, a.body? = some body → body.bytecode.length < 4294967296 ∧
          body.handlers.length < 65536 ∧ Readable pool body.attributes := by
  rw [takeApart]
  by_cases hcode : name = "Code"
  · rw [if_pos hcode, Except.map_ok]
    constructor
    · rintro ⟨body, hbody, rfl⟩
      obtain ⟨hinfo, hfits⟩ := (readBody_ok hnested hbound i name).1 hbody
      refine ⟨rfl, rfl, hinfo.symm, by simp [body?, hcode], ?_⟩
      intro body' hbody'
      obtain rfl : body = body' := Option.some.inj hbody'
      exact hfits
    · rintro ⟨rfl, rfl, hinfo, hisCode, hfits⟩
      cases a with
      | raw i name info => exact absurd (hisCode.2 hcode) (by simp [body?])
      | code i name body =>
        exact ⟨body, (readBody_ok hnested hbound i name).2
          ⟨hinfo.symm, hfits body rfl⟩, rfl⟩
  · rw [if_neg hcode]
    constructor
    · intro h
      obtain rfl : raw i name info = a := by simpa using h
      exact ⟨rfl, rfl, rfl, by simp [body?, hcode], by simp [body?]⟩
    · rintro ⟨rfl, rfl, rfl, hisCode, -⟩
      cases a with
      | raw i name info => rfl
      | code i name body => exact absurd (hisCode.1 rfl) hcode

private theorem readFirst_ok {pool : Pool} {nested : Reader (List Attribute)} {n : Nat}
    {i : UInt16} {name : String} {info : Bytes} {attributes : List Attribute}
    {c c' : Cursor} :
    (do
      let first ← if name = "Code" then
          match readBody nested info with
          | .ok body => pure (code i name body)
          | .error e => throw e
        else pure (raw i name info)
      return first :: (← readMany pool nested n) : Reader (List Attribute)).run c =
        .ok (attributes, c') ↔
      ∃ a rest, takeApart nested i name info = .ok a ∧
        (readMany pool nested n).run c = .ok (rest, c') ∧ attributes = a :: rest := by
  have htail (a : Attribute) :
      (do return a :: (← readMany pool nested n) : Reader (List Attribute)).run c =
          .ok (attributes, c') ↔
        ∃ rest, (readMany pool nested n).run c = .ok (rest, c') ∧ attributes = a :: rest := by
    simp only [run_bind_ok, run_pure_ok]
    constructor
    · rintro ⟨rest, c₁, h, rfl, rfl⟩
      exact ⟨rest, h, rfl⟩
    · rintro ⟨rest, h, rfl⟩
      exact ⟨rest, c', h, rfl, rfl⟩
  rw [takeApart]
  by_cases hcode : name = "Code"
  · rw [if_pos hcode, if_pos hcode]
    cases hbody : readBody nested info with
    | error e =>
      simp only [run_bind_ok, run_throw_ok, Except.map_ok, reduceCtorEq, false_and,
        exists_false]
    | ok body =>
      simp only [pure_bind, Except.map_ok, Except.ok.injEq, exists_eq_left', htail]
      simp
  · rw [if_neg hcode, if_neg hcode]
    simp only [pure_bind, Except.ok.injEq, htail]
    simp

/-- One step of the reader of attributes. -/
theorem readMany_succ_ok {pool : Pool} {nested : Reader (List Attribute)} {n : Nat}
    {attributes : List Attribute} {c c' : Cursor} :
    (readMany pool nested (n + 1)).run c = .ok (attributes, c') ↔
      ∃ i info name a rest c₁, info.length < 4294967296 ∧ c.Reads (framed i info) c₁ ∧
        pool.text i = .ok name ∧ takeApart nested i name info = .ok a ∧
        (readMany pool nested n).run c₁ = .ok (rest, c') ∧ attributes = a :: rest := by
  rw [readMany]
  simp only [run_bind_ok, run_u16_ok, run_u32_ok, run_bytes_ok]
  constructor
  · rintro ⟨i, c₁, h₁, length, c₂, h₂, info, c₃, ⟨hlength, h₃⟩, h⟩
    split at h
    · exact (run_throw_ok.1 h).elim
    · rename_i name hname
      obtain ⟨a, rest, h⟩ := readFirst_ok.1 h
      obtain ⟨hlt, rfl⟩ := Bytes.eq_toNat_u32.1 hlength
      refine ⟨i, info, name, a, rest, c₃, hlt, ?_, hname, h⟩
      simp only [framed, Cursor.reads_append]
      exact ⟨c₂, ⟨c₁, h₁, h₂⟩, h₃⟩
  · rintro ⟨i, info, name, a, rest, c₃, hlt, hframed, hname, h⟩
    simp only [framed, Cursor.reads_append] at hframed
    obtain ⟨c₂, ⟨c₁, h₁, h₂⟩, h₃⟩ := hframed
    refine ⟨i, c₁, h₁, _, c₂, h₂, info, c₃, ⟨Bytes.eq_toNat_u32.2 ⟨hlt, rfl⟩, h₃⟩, ?_⟩
    rw [hname]
    exact readFirst_ok.2 ⟨a, rest, h⟩

/-- What holds of an attribute and all that is nested in it. -/
theorem forall_mem_inside {P : Attribute → Prop} {a : Attribute} :
    (∀ b ∈ a.inside, P b) ↔
      P a ∧ ∀ body, a.body? = some body → ∀ b ∈ insideAll body.attributes, P b := by
  cases a with
  | raw i name info => simp [inside_raw, body?]
  | code i name body => simp [inside_code, body?]

theorem forall_mem_insideAll_cons {P : Attribute → Prop} {a : Attribute}
    {rest : List Attribute} :
    (∀ b ∈ insideAll (a :: rest), P b) ↔
      (∀ b ∈ a.inside, P b) ∧ ∀ b ∈ insideAll rest, P b := by
  rw [insideAll]
  exact List.forall_mem_append

theorem length_bytecode_le_content {a : Attribute} {body : MethodBody}
    (h : a.body? = some body) : body.bytecode.length ≤ a.content.length := by
  cases a with
  | raw i name info => exact absurd h (by simp [body?])
  | code i name body' =>
    obtain rfl : body' = body := Option.some.inj h
    simp only [content, Body.head, List.length_append]
    omega

/-- An attribute that is taken apart fits and is named, and so does all that
is nested in it. -/
theorem takeApart_ok_iff {pool : Pool} {bound : Nat} {nested : Reader (List Attribute)}
    (hnested : ReadsLists pool bound nested) {i : UInt16} {info : Bytes} {a : Attribute}
    (hbound : info.length < bound) (hlt : info.length < 4294967296) :
    (∃ name, pool.text i = .ok name ∧ takeApart nested i name info = .ok a) ↔
      a.nameIndex = i ∧ a.content = info ∧ ∀ b ∈ a.inside, b.Named pool ∧ b.Fits := by
  simp only [takeApart_ok hnested hbound, forall_mem_inside, Named, Fits]
  constructor
  · rintro ⟨name, hname, rfl, rfl, rfl, hcode, hbody⟩
    refine ⟨rfl, rfl, ⟨⟨hname, hcode⟩, hlt, ?_⟩, ?_⟩
    · exact fun body h => ⟨(hbody body h).2.1, (hbody body h).2.2.1⟩
    · exact fun body h => (hbody body h).2.2.2
  · rintro ⟨rfl, rfl, ⟨⟨hname, hcode⟩, -, hcounts⟩, hinside⟩
    refine ⟨a.name, hname, rfl, rfl, rfl, hcode, ?_⟩
    intro body h
    have hle := length_bytecode_le_content h
    exact ⟨by omega, (hcounts body h).1, (hcounts body h).2, hinside body h⟩

/-- The reader of a number of attributes, given a reader for nested ones. -/
theorem readMany_ok {pool : Pool} {bound : Nat} {nested : Reader (List Attribute)}
    (hnested : ReadsLists pool bound nested) :
    ∀ (n : Nat) (c : Cursor) (attributes : List Attribute) (c' : Cursor),
      c.rest.length ≤ bound →
      ((readMany pool nested n).run c = .ok (attributes, c') ↔
        attributes.length = n ∧
          (∀ a ∈ insideAll attributes, a.Named pool ∧ a.Fits) ∧
          c.Reads (images attributes) c') := by
  intro n
  induction n with
  | zero =>
    intro c attributes c' _
    rw [readMany, run_pure_ok, List.length_eq_zero_iff]
    constructor
    · rintro ⟨rfl, rfl⟩
      exact ⟨rfl, by simp [insideAll], Cursor.reads_nil.2 rfl⟩
    · rintro ⟨rfl, -, hreads⟩
      exact ⟨rfl, Cursor.reads_nil.1 hreads⟩
  | succ n ih =>
    intro c attributes c' hc
    rw [readMany_succ_ok]
    -- A frame takes six bytes, so its content is shorter than the bound.
    have hshort {i : UInt16} {info : Bytes} {c₁ : Cursor}
        (h : c.Reads (framed i info) c₁) :
        info.length < bound ∧ c₁.rest.length ≤ bound := by
      have := h.length_rest
      simp only [framed, List.length_append, Bytes.ofU16_length, Bytes.ofU32_length] at this
      omega
    constructor
    · rintro ⟨i, info, name, a, rest, c₁, hlt, hframed, hname, ha, hrest, rfl⟩
      obtain ⟨hinfo, hle⟩ := hshort hframed
      obtain ⟨rfl, rfl, hinside⟩ :=
        (takeApart_ok_iff hnested hinfo hlt).1 ⟨name, hname, ha⟩
      obtain ⟨hlen, hfits, hreads⟩ := (ih c₁ rest c' hle).1 hrest
      refine ⟨by rw [List.length_cons, hlen],
        forall_mem_insideAll_cons.2 ⟨hinside, hfits⟩, ?_⟩
      rw [images, image_eq]
      exact Cursor.reads_append.2 ⟨c₁, hframed, hreads⟩
    · rintro ⟨hlen, hfits, hreads⟩
      cases attributes with
      | nil => exact absurd hlen (by simp)
      | cons a rest =>
        rw [images, image_eq] at hreads
        obtain ⟨c₁, hframed, hreads⟩ := Cursor.reads_append.1 hreads
        obtain ⟨hinside, hfits⟩ := forall_mem_insideAll_cons.1 hfits
        obtain ⟨hinfo, hle⟩ := hshort hframed
        have hlt : a.content.length < 4294967296 := (hinside a a.self_mem_inside).2.1
        obtain ⟨name, hname, ha⟩ :=
          (takeApart_ok_iff hnested hinfo hlt).2 ⟨rfl, rfl, hinside⟩
        exact ⟨a.nameIndex, a.content, name, a, rest, c₁, hlt, hframed, hname, ha,
          (ih c₁ rest c' hle).2 ⟨by simpa using hlen, hfits, hreads⟩, rfl⟩

/-- The reader of attributes accepts exactly the bytes of attributes that fit
and are named, as soon as the bound on the nesting is above the number of
unread bytes.  The proof is the induction on the bound: the content of an
attribute is shorter than the attribute. -/
theorem readList_ok (pool : Pool) (depth : Nat) :
    ReadsLists pool depth (readList pool depth) := by
  induction depth with
  | zero =>
    intro c attributes c' hc
    exact absurd hc (Nat.not_lt_zero _)
  | succ depth ih =>
    intro c attributes c' hc
    rw [readList, run_bind_ok]
    simp only [run_u16_ok, listImage, Cursor.reads_append]
    constructor
    · rintro ⟨n, c₁, hn, h⟩
      have := hn.length_rest
      obtain ⟨hlen, hfits, hreads⟩ := (readMany_ok ih _ c₁ attributes c' (by omega)).1 h
      obtain ⟨hlt, rfl⟩ := Bytes.eq_toNat_u16.1 hlen
      exact ⟨⟨hlt, hfits⟩, c₁, hn, hreads⟩
    · rintro ⟨⟨hlt, hfits⟩, c₁, hn, hreads⟩
      have := hn.length_rest
      refine ⟨_, c₁, hn, ?_⟩
      rw [← Bytes.eq_toNat_u16.2 ⟨hlt, rfl⟩]
      exact (readMany_ok ih _ c₁ attributes c' (by omega)).2 ⟨rfl, hfits, hreads⟩

end Attribute

end Cleartext

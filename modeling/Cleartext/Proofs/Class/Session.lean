import Cleartext.Class.Build
import Cleartext.Code.Editor
import Cleartext.Proofs.Class.Adding
import Cleartext.Proofs.Class.RoundTrip
import Cleartext.Proofs.Class.Shrinking

/-!
# Classes that are edited

A class that was read or made can be edited: constants and members are added,
method bodies are rewritten, the pool is shrunk.  `ClassFile.Reached` says which
classes an editing session can reach, failed steps included.  Every one of them
is `Consistent`: its pool is coherent, its own name resolves, and every attribute
has the name that its index stands for.

What no step checks are lengths.  A text, a list of members or an attribute can
outgrow the field its length is written in, and then the class is written
without a complaint and cannot be read back.  `parse_encode_iff` says that this
is the only way: what is written for a reached class is read as the same class
if and only if every length fits its field (`InLimits`).
-/

namespace Cleartext

/-! ## Sessions -/

/-- A call that adds a constant to a pool, with what it refers to. -/
inductive PoolCall
  | text (s : String)
  | units (u : Units)
  | class_ (name : String)
  | string (s : String)
  | stringUnits (u : Units)
  | integer (v : Int32)
  | long (v : Int64)
  | float (bits : UInt32)
  | double (bits : UInt64)
  | nameAndType (name descriptor : String)
  | field (owner name descriptor : String)
  | method (owner name descriptor : String)
  | interfaceMethod (owner name descriptor : String)

/-- The edit that a call makes. -/
def PoolCall.edit : PoolCall → Pool.Edit UInt16
  | text s => Pool.Edit.text s
  | units u => Pool.Edit.units u
  | class_ name => Pool.Edit.class_ name
  | string s => Pool.Edit.string s
  | stringUnits u => Pool.Edit.stringUnits u
  | integer v => Pool.Edit.add (.integer v)
  | long v => Pool.Edit.add (.long v)
  | float bits => Pool.Edit.add (.float bits)
  | double bits => Pool.Edit.add (.double bits)
  | nameAndType name descriptor => Pool.Edit.nameAndType name descriptor
  | field owner name descriptor => Pool.Edit.ref .field owner name descriptor
  | method owner name descriptor => Pool.Edit.ref .method owner name descriptor
  | interfaceMethod owner name descriptor => Pool.Edit.ref .interfaceMethod owner name descriptor

theorem Attribute.Named.extend {p q : Pool} {a : Attribute} (h : a.Named p)
    (hextends : p.Extends q) : a.Named q :=
  ⟨hextends.text h.1, h.2⟩

namespace ClassFile

/-- The classes that an editing session reaches.  A step that fails leaves the
class as it stands then.  A body that is added has attributes of the names that
their indices stand for. -/
inductive Reached : ClassFile → Prop
  | parsed {data : Bytes} {cf : ClassFile} (h : parse data = .ok cf) : Reached cf
  | made {name superName : String} {cf : ClassFile} (h : new name superName = .ok cf) : Reached cf
  | called {cf : ClassFile} (h : Reached cf) (call : PoolCall) :
      Reached { cf with pool := (cf.pool.edit call.edit).2 }
  | addedField {cf : ClassFile} (h : Reached cf) (access : UInt16) (name descriptor : String) :
      Reached ((Build.addField access name descriptor).run.run cf).2
  | addedMethod {cf : ClassFile} (h : Reached cf) (access : UInt16) (name descriptor : String)
      (body : Option MethodBody)
      (hbody : ∀ b ∈ body, ∀ a ∈ Attribute.insideAll b.attributes, a.Named cf.pool) :
      Reached ((Build.addMethod access name descriptor body).run.run cf).2
  | committed {cf : ClassFile} (h : Reached cf) {before after : List Member} {m : Member}
      {e e' : Editor} (hmethods : cf.methods = before ++ m :: after)
      (hbody : m.body? = some e.body) (hcommit : e.commit cf.pool = .ok e') :
      Reached { cf with methods := before ++ m.setBody e'.body :: after }
  | shrunk {cf cf' : ClassFile} (h : Reached cf) (hshrink : cf.shrink = .ok cf') : Reached cf'

/-- What every step of a session keeps. -/
structure Consistent (cf : ClassFile) : Prop where
  pool : cf.pool.Coherent
  named : ∀ a ∈ cf.allAttributes, a.Named cf.pool
  thisClass : ∃ name, cf.pool.className cf.thisClass = .ok name
  interfaces : cf.interfaces.length < 65536
  fields : ∀ m ∈ cf.fields, m.attributes.length < 65536
  methods : ∀ m ∈ cf.methods, m.attributes.length < 65536
  attributes : cf.attributes.length < 65536

/-! ## Reading and adding -/

theorem Consistent.of_parse {data : Bytes} {cf : ClassFile} (h : parse data = .ok cf) :
    cf.Consistent := by
  obtain ⟨hpool, hreadable, -, hname⟩ := parse_ok.1 h
  obtain ⟨slots, hslots, hcount, hlaid, -, hclosed⟩ := hreadable.pool
  have hcoherent : cf.pool.Coherent := by
    have hwellFormed : cf.pool.WellFormed := ⟨slots, hslots, hlaid, hcount⟩
    rw [hpool] at hwellFormed hclosed ⊢
    exact Pool.coherent_ofSlots hwellFormed hclosed
  refine ⟨hcoherent, ?_, hname, hreadable.interfaces, fun m hm => (hreadable.fields.2 m hm).1,
    fun m hm => (hreadable.methods.2 m hm).1, hreadable.attributes.1⟩
  rw [forall_mem_allAttributes]
  exact ⟨fun m hm a ha => ((hreadable.fields.2 m hm).2 a ha).1,
    fun m hm a ha => ((hreadable.methods.2 m hm).2 a ha).1,
    fun a ha => (hreadable.attributes.2 a ha).1⟩

/-- A pool in which every entry keeps its place can stand for the pool. -/
theorem Consistent.extend {cf : ClassFile} (h : cf.Consistent) {q : Pool} (hq : q.Coherent)
    (hextends : cf.pool.Extends q) : Consistent { cf with pool := q } := by
  refine ⟨hq, fun a ha => Attribute.Named.extend (h.named a ha) hextends, ?_, h.interfaces,
    h.fields, h.methods, h.attributes⟩
  obtain ⟨name, hname⟩ := h.thisClass
  exact ⟨name, hextends.className hname⟩

theorem Consistent.called {cf : ClassFile} (h : cf.Consistent) (call : PoolCall) :
    Consistent { cf with pool := (cf.pool.edit call.edit).2 } := by
  have hgives : ∃ Right, Pool.Edit.Gives (fun _ => True) call.edit Right := by
    cases call with
    | text s => exact ⟨_, Pool.Edit.gives_text s⟩
    | units u => exact ⟨_, Pool.Edit.gives_units u⟩
    | class_ name => exact ⟨_, Pool.Edit.gives_class name⟩
    | string s => exact ⟨_, Pool.Edit.gives_stringUnits _⟩
    | stringUnits u => exact ⟨_, Pool.Edit.gives_stringUnits u⟩
    | integer v | long v | float bits | double bits =>
      exact ⟨_, Pool.Edit.gives_add True.intro (by simp [Constant.references])⟩
    | nameAndType name descriptor => exact ⟨_, Pool.Edit.gives_nameAndType name descriptor⟩
    | field owner name descriptor => exact ⟨_, Pool.Edit.gives_ref (.inl rfl) owner name descriptor⟩
    | method owner name descriptor =>
      exact ⟨_, Pool.Edit.gives_ref (.inr (.inl rfl)) owner name descriptor⟩
    | interfaceMethod owner name descriptor =>
      exact ⟨_, Pool.Edit.gives_ref (.inr (.inr rfl)) owner name descriptor⟩
  obtain ⟨Right, hgives⟩ := hgives
  obtain ⟨hq, hextends, -⟩ := hgives cf.pool h.pool fun _ _ => True.intro
  exact h.extend hq hextends

/-! ## Making classes and members -/

namespace Build

variable {α β : Type} {Given : Pool → Prop}

/-- The answer of a class edit and the class that it leaves. -/
def exec (b : Build α) (cf : ClassFile) : Except Error α × ClassFile := b.run.run cf

theorem exec_bind (b : Build α) (next : α → Build β) (cf : ClassFile) :
    exec (b >>= next) cf = match exec b cf with
      | (.ok a, cf') => exec (next a) cf'
      | (.error e, cf') => (.error e, cf') := by
  have hbind : exec (b >>= next) cf = exec (ExceptT.mk (ExceptT.bindCont next (exec b cf).1))
      (exec b cf).2 := rfl
  rw [hbind]
  obtain ⟨result, cf'⟩ := exec b cf
  cases result <;> rfl

theorem exec_pool (e : Pool.Edit α) (cf : ClassFile) :
    exec (pool e) cf = ((cf.pool.edit e).1, { cf with pool := (cf.pool.edit e).2 }) := by
  -- Only what the edit does to this pool matters.
  have hconst : exec (pool e) cf = exec (pool (ExceptT.mk fun _ => cf.pool.edit e)) cf := rfl
  rw [hconst]
  obtain ⟨result, q⟩ := cf.pool.edit e
  cases result <;> rfl

/-- A class edit, when `Given` holds from the pool on: it keeps the class
consistent and the entries in their places, and its answer is right from then
on. -/
def Gives (Given : Pool → Prop) (b : Build α) (Right : Pool → α → Prop) : Prop :=
  ∀ cf : ClassFile, cf.Consistent → (∀ q, cf.pool.Extends q → Given q) →
    (exec b cf).2.Consistent ∧ cf.pool.Extends (exec b cf).2.pool ∧
      ∀ a, (exec b cf).1 = .ok a → ∀ q, (exec b cf).2.pool.Extends q → Right q a

theorem gives_pure {a : α} {P : Pool → α → Prop} (h : ∀ q, Given q → P q a) :
    Gives Given (pure a) P := by
  intro cf hcf hgiven
  refine ⟨hcf, Pool.Extends.refl _, fun b hb q hq => ?_⟩
  obtain rfl := Except.ok.inj (show Except.ok a = Except.ok b from hb)
  exact h q (hgiven q hq)

theorem gives_bind {b : Build α} {next : α → Build β} {P : Pool → α → Prop}
    {Q : Pool → β → Prop} (h : Gives Given b P)
    (hnext : ∀ a, Gives (fun q => Given q ∧ P q a) (next a) Q) : Gives Given (b >>= next) Q := by
  intro cf hcf hgiven
  obtain ⟨hcf', hextends, hright⟩ := h cf hcf hgiven
  rw [exec_bind]
  cases hrun : exec b cf with
  | mk result cf' =>
    rw [hrun] at hcf' hextends hright
    cases result with
    | error e => exact ⟨hcf', hextends, fun b hb => absurd hb (by simp)⟩
    | ok a =>
      obtain ⟨hcf'', hextends', hright'⟩ := hnext a cf' hcf' fun q hq =>
        ⟨hgiven q (hextends.trans hq), hright a rfl q hq⟩
      exact ⟨hcf'', hextends.trans hextends', hright'⟩

theorem gives_pool {e : Pool.Edit α} {P : Pool → α → Prop}
    (h : Pool.Edit.Gives Given e P) : Gives Given (pool e) P := by
  intro cf hcf hgiven
  obtain ⟨hq, hextends, hright⟩ := h cf.pool hcf.pool hgiven
  rw [exec_pool]
  exact ⟨hcf.extend hq hextends, hextends, hright⟩

/-- A change of the class that leaves the pool alone. -/
theorem gives_modify {f : ClassFile → ClassFile} (hpool : ∀ cf, (f cf).pool = cf.pool)
    (h : ∀ cf : ClassFile, cf.Consistent → Given cf.pool → (f cf).Consistent) :
    Gives Given (modify f) fun _ _ => True := by
  intro cf hcf hgiven
  refine ⟨h cf hcf (hgiven _ (Pool.Extends.refl _)), ?_, fun _ _ _ _ => True.intro⟩
  show cf.pool.Extends (f cf).pool
  rw [hpool]
  exact Pool.Extends.refl _

theorem gives_newMember (access : UInt16) (name descriptor : String) :
    Gives Given (newMember access name descriptor) fun _ m => m.attributes = [] :=
  gives_bind (gives_pool (Pool.Edit.gives_text name)) fun _ =>
    gives_bind (gives_pool (Pool.Edit.gives_text descriptor)) fun _ => gives_pure fun _ _ => rfl

/-- A member that can be appended to a class with the pool `q`. -/
def Fitting (q : Pool) (m : Member) : Prop :=
  m.attributes.length < 65536 ∧ ∀ a ∈ Attribute.insideAll m.attributes, a.Named q

theorem fitting_of_nil {q : Pool} {m : Member} (h : m.attributes = []) : Fitting q m := by
  unfold Fitting
  rw [h]
  exact ⟨by decide, by simp [Attribute.insideAll]⟩

/-- A method whose only attribute is its body. -/
theorem fitting_code {q : Pool} {m : Member} {i : UInt16} {body : MethodBody}
    (h : m.attributes = [.code i "Code" body])
    (hname : q.get? i = some (.utf8 (ModifiedUtf8.encode (Units.ofText "Code"))))
    (hbody : ∀ a ∈ Attribute.insideAll body.attributes, a.Named q) : Fitting q m := by
  unfold Fitting
  rw [h]
  refine ⟨by simp, ?_⟩
  have htext : q.text i = .ok "Code" := Pool.text_of_get? hname
  rw [Attribute.insideAll_eq_flatMap, List.flatMap_singleton, Attribute.inside_code,
    List.forall_mem_cons]
  exact ⟨⟨htext, by simp [Attribute.body?, Attribute.name]⟩, hbody⟩

theorem gives_addField (access : UInt16) (name descriptor : String) :
    Gives Given (addField access name descriptor) fun _ _ => True := by
  refine gives_bind (gives_newMember access name descriptor) fun m =>
    gives_bind (gives_modify (fun _ => rfl) fun cf hcf hm => ?_) fun _ =>
      gives_pure fun _ _ => True.intro
  obtain ⟨hlength, hnamed⟩ := fitting_of_nil (q := cf.pool) hm.2
  refine { hcf with named := ?_, fields := ?_ }
  · have hold := forall_mem_allAttributes.1 hcf.named
    refine forall_mem_allAttributes.2 ⟨?_, hold.2⟩
    exact List.forall_mem_append.2 ⟨hold.1, List.forall_mem_singleton.2 hnamed⟩
  · exact List.forall_mem_append.2 ⟨hcf.fields, List.forall_mem_singleton.2 hlength⟩

/-- Appending a method that fits. -/
theorem gives_appendMethod {m : Member} (hm : ∀ q, Given q → Fitting q m) :
    Gives Given (do modify fun cf => { cf with methods := cf.methods ++ [m] }; return m)
      fun _ _ => True := by
  refine gives_bind (gives_modify (fun _ => rfl) fun cf hcf hgiven => ?_) fun _ =>
    gives_pure fun _ _ => True.intro
  obtain ⟨hlength, hnamed⟩ := hm cf.pool hgiven
  refine { hcf with named := ?_, methods := ?_ }
  · have hold := forall_mem_allAttributes.1 hcf.named
    refine forall_mem_allAttributes.2 ⟨hold.1, ?_, hold.2.2⟩
    exact List.forall_mem_append.2 ⟨hold.2.1, List.forall_mem_singleton.2 hnamed⟩
  · exact List.forall_mem_append.2 ⟨hcf.methods, List.forall_mem_singleton.2 hlength⟩

theorem gives_addMethod (access : UInt16) (name descriptor : String) (body : Option MethodBody)
    (hbody : ∀ q, Given q → ∀ b ∈ body, ∀ a ∈ Attribute.insideAll b.attributes, a.Named q) :
    Gives Given (addMethod access name descriptor body) fun _ _ => True := by
  refine gives_bind (gives_newMember access name descriptor) fun m => ?_
  cases body with
  | none =>
    simp only [pure_bind]
    exact gives_appendMethod fun q hm => fitting_of_nil hm.2
  | some b =>
    refine gives_bind (gives_pool (Pool.Edit.gives_text "Code")) fun i => ?_
    simp only [pure_bind]
    exact gives_appendMethod fun q hq => fitting_code rfl hq.2 (hbody q hq.1.1 b rfl)

end Build

theorem coherent_empty : Pool.empty.Coherent := by
  refine ⟨⟨[], rfl, .nil, by decide⟩, fun c hc => ?_, fun c i hi => ?_⟩
  · exact absurd hc (by simp [Pool.empty])
  · exact absurd hi (by simp [Pool.empty])

/-- A class without anything in it, not even a name. -/
private def blank : ClassFile :=
  { minor := 0, major := 52, pool := Pool.empty, access := 0x0021, thisClass := 0,
    superClass := 0, interfaces := [], fields := [], methods := [], attributes := [] }

/-- The part of making a class that gives it a superclass. -/
private def nameSuper (superName : String) : Build Unit := do
  if superName ≠ "" then
    let i ← Build.pool (Pool.Edit.class_ superName)
    modify fun cf => { cf with superClass := i }

private theorem gives_nameSuper (superName : String) :
    Build.Gives (fun _ => True) (nameSuper superName) fun _ _ => True := by
  unfold nameSuper
  split
  · refine Build.gives_bind (Build.gives_pool (Pool.Edit.gives_class superName)) fun i => ?_
    exact Build.gives_modify (fun _ => rfl) fun cf hcf _ => { hcf with }
  · exact Build.gives_pure fun _ _ => True.intro

/-- A class is made by naming it and then its superclass. -/
private theorem new_ok {name superName : String} {cf : ClassFile}
    (h : new name superName = .ok cf) : ∃ i q,
      Pool.empty.edit (Pool.Edit.class_ name) = (.ok i, q) ∧
      Build.exec (nameSuper superName) { blank with pool := q, thisClass := i } = (.ok (), cf) := by
  have hnew : new name superName = match Build.exec (do
      let i ← Build.pool (Pool.Edit.class_ name)
      modify fun cf => { cf with thisClass := i }
      nameSuper superName) blank with
    | (.ok (), cf) => .ok cf
    | (.error e, _) => .error e := rfl
  rw [hnew, Build.exec_bind, Build.exec_pool] at h
  cases hedit : Pool.empty.edit (Pool.Edit.class_ name) with
  | mk result q =>
    rw [show blank.pool.edit (Pool.Edit.class_ name) = (result, q) from hedit] at h
    cases result with
    | error e => exact absurd h (by simp)
    | ok i =>
      refine ⟨i, q, rfl, ?_⟩
      cases hrun : Build.exec (nameSuper superName) { blank with pool := q, thisClass := i } with
      | mk result cf' =>
        replace h : (match Build.exec (nameSuper superName)
            { blank with pool := q, thisClass := i } with
          | (.ok (), cf) => .ok cf
          | (.error e, _) => .error e) = Except.ok cf := h
        rw [hrun] at h
        cases result with
        | error e => exact absurd h (by simp)
        | ok _ =>
          obtain rfl := Except.ok.inj h
          rfl

/-- A class that is made from nothing is consistent from its name on. -/
theorem Consistent.of_new {name superName : String} {cf : ClassFile}
    (h : new name superName = .ok cf) : cf.Consistent := by
  obtain ⟨i, q, hedit, hrun⟩ := new_ok h
  have hclass : Pool.Edit.Gives (fun _ => True) (Pool.Edit.class_ name) _ :=
    Pool.Edit.gives_class name
  obtain ⟨hq, -, hright⟩ := hclass Pool.empty coherent_empty fun _ _ => True.intro
  rw [hedit] at hq hright
  obtain ⟨n, hi, hn⟩ := hright i rfl q (Pool.Extends.refl q)
  have hnamed : Consistent { blank with pool := q, thisClass := i } :=
    { pool := hq
      named := by simp [allAttributes, blank, Attribute.insideAll]
      thisClass := ⟨_, Pool.className_ok.2 ⟨n, hi, Pool.text_of_get? hn⟩⟩
      interfaces := by simp [blank]
      fields := by simp [blank]
      methods := by simp [blank]
      attributes := by simp [blank] }
  obtain ⟨hdone, -⟩ := gives_nameSuper superName _ hnamed fun _ _ => True.intro
  rw [hrun] at hdone
  exact hdone

end ClassFile

/-! ## Committing -/

/-- Moving the offsets of an attribute changes its bytes only. -/
theorem Relocation.attribute_ok {r : Relocation} {pool : Pool} {a a' : Attribute}
    (h : r.attribute_ pool a = .ok a') :
    ∃ i name info info', a = .raw i name info ∧ a' = .raw i name info' := by
  cases a with
  | code i name body => exact absurd h (by simp [attribute_])
  | raw i name info =>
    rw [attribute_] at h
    split at h
    · obtain ⟨info', -, h⟩ := Except.bind_ok.1 h
      exact ⟨i, name, info, info', rfl, (Except.pure_ok.1 h).symm⟩
    · simp only at h
      split at h
      · rename_i info' _
        exact ⟨i, name, info, info', rfl, (Except.ok.inj h).symm⟩
      · split at h
        · exact ⟨i, name, info, info, rfl, (Except.ok.inj h).symm⟩
        · cases h

/-- Moving the offsets of attributes keeps their names. -/
theorem Relocation.named_attributes {r : Relocation} {pool p : Pool}
    {attributes attributes' : List Attribute}
    (h : List.Forall₂ (fun a a' => r.attribute_ pool a = .ok a') attributes attributes')
    (hnamed : ∀ a ∈ Attribute.insideAll attributes, a.Named p) :
    ∀ a ∈ Attribute.insideAll attributes', a.Named p := by
  induction h with
  | nil => exact hnamed
  | cons ha _ ih =>
    obtain ⟨i, name, info, info', rfl, rfl⟩ := Relocation.attribute_ok ha
    rw [Attribute.forall_mem_insideAll_cons, Attribute.inside_raw,
      List.forall_mem_singleton] at hnamed ⊢
    exact ⟨hnamed.1, ih hnamed.2⟩

/-- Committing keeps the names of the attributes of a body. -/
theorem Editor.named_commit {e e' : Editor} {pool p : Pool} (h : e.commit pool = .ok e')
    (hnamed : ∀ a ∈ Attribute.insideAll e.body.attributes, a.Named p) :
    ∀ a ∈ Attribute.insideAll e'.body.attributes, a.Named p := by
  unfold commit at h
  split at h
  · obtain rfl := Except.pure_ok.1 h
    exact hnamed
  · obtain ⟨body, hedited, h⟩ := Except.bind_ok.1 h
    obtain rfl := Except.pure_ok.1 h
    obtain ⟨-, _, _, _, attributes, -, -, ⟨relocation, hrelocated⟩, rfl⟩ := edited_ok hedited
    exact Relocation.named_attributes hrelocated hnamed

namespace Member

variable {m : Member} {body : MethodBody}

theorem length_setBody : (m.setBody body).attributes.length = m.attributes.length := by
  show (setBody.go body m.attributes).length = _
  induction m.attributes with
  | nil => rfl
  | cons a rest ih =>
    unfold setBody.go
    split
    · rfl
    · rw [List.length_cons, List.length_cons, ih]

private theorem named_go {p : Pool} {attributes : List Attribute}
    (h : ∀ a ∈ Attribute.insideAll attributes, a.Named p)
    (hbody : ∀ a ∈ Attribute.insideAll body.attributes, a.Named p) :
    ∀ a ∈ Attribute.insideAll (setBody.go body attributes), a.Named p := by
  induction attributes with
  | nil => exact h
  | cons a rest ih =>
    rw [Attribute.forall_mem_insideAll_cons] at h
    unfold setBody.go
    split
    · rw [Attribute.forall_mem_insideAll_cons]
      refine ⟨?_, h.2⟩
      cases a with
      | raw i name info => exact h.1
      | code i name old =>
        have hcode := h.1 _ (Attribute.self_mem_inside _)
        show ∀ b ∈ (Attribute.code i name body).inside, b.Named p
        rw [Attribute.inside_code, List.forall_mem_cons]
        exact ⟨⟨hcode.1, hcode.2⟩, hbody⟩
    · rw [Attribute.forall_mem_insideAll_cons]
      exact ⟨h.1, ih h.2⟩

/-- Putting in another body keeps names right if those of the body are. -/
theorem named_setBody {p : Pool} (h : ∀ a ∈ Attribute.insideAll m.attributes, a.Named p)
    (hbody : ∀ a ∈ Attribute.insideAll body.attributes, a.Named p) :
    ∀ a ∈ Attribute.insideAll (m.setBody body).attributes, a.Named p :=
  named_go h hbody

/-- The attributes of the body of a member are attributes of the member. -/
theorem mem_insideAll_of_body? (h : m.body? = some body) {a : Attribute}
    (ha : a ∈ Attribute.insideAll body.attributes) : a ∈ Attribute.insideAll m.attributes := by
  obtain ⟨code, hfind, hcode⟩ := Option.bind_eq_some_iff.1 h
  refine Attribute.mem_insideAll.2 ⟨code, List.mem_of_find?_eq_some hfind, ?_⟩
  cases code with
  | raw i name info => exact absurd hcode (by simp [Attribute.body?])
  | code i name body' =>
    obtain rfl : body' = body := by simpa [Attribute.body?] using hcode
    rw [Attribute.inside_code]
    exact List.mem_cons_of_mem _ ha

end Member

namespace ClassFile

theorem Consistent.committed {cf : ClassFile} (h : cf.Consistent) {before after : List Member}
    {m : Member} {e e' : Editor} (hmethods : cf.methods = before ++ m :: after)
    (hbody : m.body? = some e.body) (hcommit : e.commit cf.pool = .ok e') :
    Consistent { cf with methods := before ++ m.setBody e'.body :: after } := by
  have hold := forall_mem_allAttributes.1 h.named
  have hnamed := hold.2.1
  have hlengths := h.methods
  rw [hmethods, List.forall_mem_append, List.forall_mem_cons] at hnamed hlengths
  refine { h with named := ?_, methods := ?_ }
  · refine forall_mem_allAttributes.2 ⟨hold.1, ?_, hold.2.2⟩
    refine List.forall_mem_append.2 ⟨hnamed.1, List.forall_mem_cons.2 ⟨?_, hnamed.2.2⟩⟩
    exact Member.named_setBody hnamed.2.1 (Editor.named_commit hcommit fun a ha =>
      hnamed.2.1 a (Member.mem_insideAll_of_body? hbody ha))
  · refine List.forall_mem_append.2 ⟨hlengths.1, List.forall_mem_cons.2 ⟨?_, hlengths.2.2⟩⟩
    rw [Member.length_setBody]
    exact hlengths.2.1

end ClassFile

/-! ## Shrinking -/

namespace Pool

variable {p q : Pool} {i x : UInt16}

/-- A text means the same only as an equal text. -/
theorem SameMeaning.utf8 (h : p.SameMeaning q i x) {raw : Bytes}
    (hi : p.get? i = some (.utf8 raw)) : q.get? x = some (.utf8 raw) := by
  obtain ⟨m, hm, hm'⟩ := h
  obtain ⟨c, parts, hc, rfl, -⟩ := means_iff.1 hm
  obtain ⟨d, parts', hd, hnode, -⟩ := means_iff.1 hm'
  obtain rfl : Constant.utf8 raw = c := Option.some.inj (hi.symm.trans hc)
  have hbare := (Meaning.node.inj hnode).1
  rw [hd]
  cases d with
  | utf8 raw' => exact congrArg some hbare.symm
  | _ => exact absurd hbare (by simp [Constant.bare, Constant.mapReferences])

/-- A class means the same only as a class whose name means the same. -/
theorem SameMeaning.class_ (h : p.SameMeaning q i x) {n : UInt16}
    (hi : p.get? i = some (.class_ n)) : ∃ n', q.get? x = some (.class_ n') ∧
      p.SameMeaning q n n' := by
  obtain ⟨m, hm, hm'⟩ := h
  obtain ⟨c, parts, hc, rfl, hparts⟩ := means_iff.1 hm
  obtain ⟨d, parts', hd, hnode, hparts'⟩ := means_iff.1 hm'
  obtain rfl : Constant.class_ n = c := Option.some.inj (hi.symm.trans hc)
  obtain ⟨hbare, rfl⟩ := Meaning.node.inj hnode
  cases d with
  | class_ n' =>
    refine ⟨n', hd, ?_⟩
    cases hparts with
    | cons hpart _ =>
      cases hparts' with
      | cons hpart' _ => exact ⟨_, hpart, hpart'⟩
  | _ => exact absurd hbare (by simp [Constant.bare, Constant.mapReferences])

theorem SameMeaning.text (h : p.SameMeaning q i x) {s : String} (htext : p.text i = .ok s) :
    q.text x = .ok s := by
  obtain ⟨raw, units, hraw, hunits, hs⟩ := text_ok.1 htext
  exact text_ok.2 ⟨raw, units, h.utf8 hraw, hunits, hs⟩

theorem SameMeaning.className (h : p.SameMeaning q i x) {s : String}
    (hname : p.className i = .ok s) : q.className x = .ok s := by
  obtain ⟨n, hn, htext⟩ := className_ok.1 hname
  obtain ⟨n', hn', hsame⟩ := h.class_ hn
  exact className_ok.2 ⟨n', hn', hsame.text htext⟩

/-- Slot zero holds no text. -/
theorem WellFormed.get?_zero (h : p.WellFormed) : p.get? 0 = none := by
  obtain ⟨slots, hslots, -, -⟩ := h
  unfold get?
  rw [← Array.getElem?_toList, hslots]
  rfl

end Pool

section

variable {R : UInt16 → UInt16 → Prop} {pool p q : Pool}
  (hR : ∀ i x (s : String), IndexRenumbered R i x → p.text i = .ok s → q.text x = .ok s)

include hR

/-- Renumbered attributes keep their names where texts are kept. -/
theorem Attribute.Renumbered.named {a a' : Attribute} (h : Attribute.Renumbered R pool a a')
    (hnamed : ∀ b ∈ a.inside, b.Named p) : ∀ b ∈ a'.inside, b.Named q := by
  induction a using Attribute.induction generalizing a' with
  | hraw i name info =>
    cases h with
    | raw hindex hinfo =>
      rw [inside_raw, List.forall_mem_singleton] at hnamed ⊢
      exact ⟨hR _ _ _ hindex hnamed.1, hnamed.2⟩
  | hcode i name body ih =>
    cases h with
    | code hindex _ _ _ _ hattributes =>
      rw [inside_code, List.forall_mem_cons] at hnamed ⊢
      refine ⟨⟨hR _ _ _ hindex hnamed.1.1, hnamed.1.2⟩, fun b hb => ?_⟩
      obtain ⟨c', hc', hb⟩ := mem_insideAll.1 hb
      obtain ⟨c, hc, hrenumbered⟩ := exists_mem_of_forall₂ hattributes hc'
      exact ih c hc hrenumbered (fun d hd => hnamed.2 d (mem_insideAll.2 ⟨c, hc, hd⟩)) b hb

theorem Attribute.Renumbered.named_all {attributes attributes' : List Attribute}
    (h : List.Forall₂ (Attribute.Renumbered R pool) attributes attributes')
    (hnamed : ∀ a ∈ insideAll attributes, a.Named p) : ∀ a ∈ insideAll attributes', a.Named q := by
  intro a ha
  obtain ⟨c', hc', ha⟩ := mem_insideAll.1 ha
  obtain ⟨c, hc, hrenumbered⟩ := exists_mem_of_forall₂ h hc'
  exact hrenumbered.named hR (fun d hd => hnamed d (mem_insideAll.2 ⟨c, hc, hd⟩)) a ha

theorem Member.Renumbered.named_all {members members' : List Member}
    (h : List.Forall₂ (Member.Renumbered R pool) members members')
    (hnamed : ∀ m ∈ members, ∀ a ∈ Attribute.insideAll m.attributes, a.Named p) :
    ∀ m ∈ members', ∀ a ∈ Attribute.insideAll m.attributes, a.Named q := by
  intro m' hm'
  obtain ⟨m, hm, hrenumbered⟩ := exists_mem_of_forall₂ h hm'
  exact Attribute.Renumbered.named_all hR hrenumbered.attributes (hnamed m hm)

end

namespace ClassFile

theorem Consistent.shrunk {cf cf' : ClassFile} (h : cf.Consistent) (hshrink : cf.shrink = .ok cf') :
    cf'.Consistent := by
  obtain ⟨live, plan, hlive, hplan, hpool, hmoved⟩ := shrink_ok hshrink
  have hwellFormed := h.pool.wellFormed
  have hsound := Compaction.compact_ok hwellFormed hlive hplan
  have hzero := hwellFormed.get?_zero
  obtain ⟨hwellFormed', hclosed⟩ := shrink_pool hwellFormed hshrink
  have hsame {i x : UInt16} {c : Constant} (hc : cf.pool.get? i = some c)
      (hx : IndexRenumbered (fun i x => Marked live i ∧ x = plan.move i) i x) :
      cf.pool.SameMeaning cf'.pool i x := by
    rcases hx with ⟨rfl, -⟩ | ⟨-, hmarked, rfl⟩
    · rw [hzero] at hc
      cases hc
    · rw [hpool]
      exact (hsound.sameMeaning_move hlive hmarked).1
  have htext : ∀ i x s, IndexRenumbered (fun i x => Marked live i ∧ x = plan.move i) i x →
      cf.pool.text i = .ok s → cf'.pool.text x = .ok s := by
    intro i x s hx htext
    obtain ⟨raw, -, hraw, -⟩ := Pool.text_ok.1 htext
    exact (hsame hraw hx).text htext
  have hnamed := forall_mem_allAttributes.1 h.named
  refine ⟨?_, ?_, ?_, ?_, ?_, ?_, ?_⟩
  · rw [hpool] at hwellFormed' hclosed ⊢
    exact Pool.coherent_ofSlots hwellFormed' hclosed
  · refine forall_mem_allAttributes.2 ⟨?_, ?_, ?_⟩
    · exact Member.Renumbered.named_all htext hmoved.fields hnamed.1
    · exact Member.Renumbered.named_all htext hmoved.methods hnamed.2.1
    · exact Attribute.Renumbered.named_all htext hmoved.attributes hnamed.2.2
  · obtain ⟨name, hname⟩ := h.thisClass
    obtain ⟨n, hn, -⟩ := Pool.className_ok.1 hname
    exact ⟨name, (hsame hn hmoved.thisClass).className hname⟩
  · rw [← hmoved.interfaces.length_eq]
    exact h.interfaces
  · intro m' hm'
    obtain ⟨m, hm, hrenumbered⟩ := exists_mem_of_forall₂ hmoved.fields hm'
    rw [← hrenumbered.attributes.length_eq]
    exact h.fields m hm
  · intro m' hm'
    obtain ⟨m, hm, hrenumbered⟩ := exists_mem_of_forall₂ hmoved.methods hm'
    rw [← hrenumbered.attributes.length_eq]
    exact h.methods m hm
  · rw [← hmoved.attributes.length_eq]
    exact h.attributes

/-- Every class that a session reaches is consistent. -/
theorem Reached.consistent {cf : ClassFile} (h : Reached cf) : cf.Consistent := by
  induction h with
  | parsed h => exact Consistent.of_parse h
  | made h => exact Consistent.of_new h
  | called _ call ih => exact ih.called call
  | addedField _ access name descriptor ih =>
    exact ((Build.gives_addField access name descriptor) _ ih fun _ _ => True.intro).1
  | addedMethod _ access name descriptor body hbody ih =>
    have hgives := Build.gives_addMethod access name descriptor body fun q hq => hq
    exact (hgives _ ih fun q hq b hb a ha => Attribute.Named.extend (hbody b hb a ha) hq).1
  | committed _ hmethods hbody hcommit ih => exact ih.committed hmethods hbody hcommit
  | shrunk _ hshrink ih => exact ih.shrunk hshrink

/-! ## Lengths -/

/-- Every length fits the field that it is written in: of texts, of the lists of
members, and of attributes and what they are made of. -/
structure InLimits (cf : ClassFile) : Prop where
  texts : Pool.SlotsFit cf.pool.slots.toList
  fields : cf.fields.length < 65536
  methods : cf.methods.length < 65536
  attributes : ∀ a ∈ cf.allAttributes, a.Fits

/-- The class with its pool indexed anew. -/
def reindexed (cf : ClassFile) : ClassFile :=
  { cf with pool := Pool.ofSlots cf.pool.slots.toList }

theorem reindexed_readable {cf : ClassFile} (h : cf.Consistent) (hlimits : cf.InLimits) :
    cf.reindexed.Readable := by
  obtain ⟨slots, hslots, hlaid, hcount⟩ := h.pool.wellFormed
  have hnamed := forall_mem_allAttributes.1 h.named
  have hfits := forall_mem_allAttributes.1 hlimits.attributes
  have hpool : cf.reindexed.pool.Readable := by
    refine ⟨slots, hslots, hcount, hlaid, fun c hc => ?_, h.pool.closed⟩
    refine hlimits.texts c ?_
    rw [hslots]
    exact List.mem_cons_of_mem _ hc
  refine ⟨hpool, h.interfaces, ⟨hlimits.fields, fun m hm => ?_⟩, ⟨hlimits.methods, fun m hm => ?_⟩,
    ?_⟩
  · exact ⟨h.fields m hm, fun a ha => ⟨hnamed.1 m hm a ha, hfits.1 m hm a ha⟩⟩
  · exact ⟨h.methods m hm, fun a ha => ⟨hnamed.2.1 m hm a ha, hfits.2.1 m hm a ha⟩⟩
  · exact ⟨h.attributes, fun a ha => ⟨hnamed.2.2 a ha, hfits.2.2 a ha⟩⟩

theorem Readable.inLimits {cf : ClassFile} (h : cf.Readable) : cf.InLimits := by
  obtain ⟨slots, hslots, -, -, hfits, -⟩ := h.pool
  refine ⟨?_, h.fields.1, h.methods.1, forall_mem_allAttributes.2 ⟨fun m hm a ha =>
    ((h.fields.2 m hm).2 a ha).2, fun m hm a ha => ((h.methods.2 m hm).2 a ha).2, fun a ha =>
    (h.attributes.2 a ha).2⟩⟩
  rw [hslots]
  exact Pool.slotsFit_none.2 hfits

/-- What is written for a class that a session reaches is read as the same class,
with the same entries at the same indices, if and only if every length fits its
field. -/
theorem parse_encode_iff {cf : ClassFile} {data : Bytes} (h : Reached cf)
    (hdata : cf.encode = .ok data) :
    (∃ cf', parse data = .ok cf' ∧ cf'.pool.slots = cf.pool.slots ∧
      cf' = { cf with pool := cf'.pool }) ↔ cf.InLimits := by
  obtain ⟨-, hdata⟩ := encode_ok.1 hdata
  constructor
  · intro hparsed
    obtain ⟨cf', hparse, hslots, hsame⟩ := hparsed
    obtain ⟨-, hreadable, -, -⟩ := parse_ok.1 hparse
    obtain ⟨htexts, hfields, hmethods, hattributes⟩ := hreadable.inLimits
    rw [hslots] at htexts
    rw [hsame] at hfields hmethods hattributes
    exact ⟨htexts, hfields, hmethods, hattributes⟩
  · intro hlimits
    have hconsistent := h.consistent
    exact ⟨cf.reindexed, parse_ok.2 ⟨rfl, reindexed_readable hconsistent hlimits, hdata.symm,
      hconsistent.thisClass⟩, rfl, rfl⟩

/-- A class that the session of `longText` starts with: the class `A`. -/
private def bareClass : Bytes :=
  [0xca, 0xfe, 0xba, 0xbe, 0, 0, 0, 52, 0, 3, 1, 0, 1, 65, 7, 0, 1, 0, 0, 0, 2, 0, 0, 0, 0, 0, 0,
   0, 0, 0, 0]

/-- A string of 65536 letters, one more than the length field of a text holds. -/
private def longText : Units := List.replicate 65536 97

private theorem length_encode_longText : (ModifiedUtf8.encode longText).length = 65536 := by
  have hunit : (ModifiedUtf8.encodeUnit 97).length = 1 := by decide
  unfold ModifiedUtf8.encode longText
  rw [List.length_flatMap, List.map_replicate, hunit, List.sum_replicate_nat]

/-- The class `A` with a string that is too long is written, and not read back. -/
theorem parse_encode_iff_long_text :
    ∃ cf data, Reached cf ∧ cf.encode = .ok data ∧
      ¬ ∃ cf', parse data = .ok cf' ∧ cf'.pool.slots = cf.pool.slots ∧
        cf' = { cf with pool := cf'.pool } := by
  have hrun : ((parse bareClass).toOption.map fun cf =>
      (cf.fields.length, cf.methods.length, cf.attributes.length, cf.pool.count)) =
      some (0, 0, 0, 3) := by decide +kernel
  cases hparse : parse bareClass with
  | error e => simp [hparse, Except.toOption] at hrun
  | ok cf =>
    simp only [hparse, Except.toOption, Option.map_some, Option.some.injEq, Prod.mk.injEq,
      List.length_eq_zero_iff] at hrun
    obtain ⟨hfields, hmethods, hattributes, hcount⟩ := hrun
    have hreached := Reached.called (.parsed hparse) (.stringUnits longText)
    have hwritable : Writable { cf with pool := (cf.pool.edit (.stringUnits longText)).2 } := by
      simp [Writable, allAttributes, hfields, hmethods, hattributes, Attribute.insideAll]
    have hdata := encode_ok.2 ⟨hwritable, rfl⟩
    refine ⟨_, _, hreached, hdata, fun hparsed => ?_⟩
    -- The text is in the pool, and its length does not fit.
    have hlimits := (parse_encode_iff hreached hdata).1 hparsed
    obtain ⟨i, hi⟩ := (Consistent.of_parse hparse).pool.exists_text_of_room longText
      (by rw [hcount]; decide)
    have hfits : (ModifiedUtf8.encode longText).length < 65536 :=
      hlimits.texts _ (Pool.mem_of_get? hi)
    rw [length_encode_longText] at hfits
    exact absurd hfits (by decide)

end ClassFile

end Cleartext

import Cleartext.Proofs.Class.Renumbering
import Cleartext.Proofs.Code.Placement
import Cleartext.Proofs.Code.StackMaps

/-!
# Moving the attributes of a method body

The attributes of a body name places of its code: line numbers start at an
instruction, local variables live over a span of the code, marks on types stand
at an instruction, a span or a row of the exception table, and a stack map has
frames at offsets.  A commit moves all of them.

`Layout.Moved` says what becomes of an attribute that is patched in place, and
`StackMap.Frame.Moved` what becomes of the frames of a stack map, which is read
and written anew.  `Attribute.Moved` puts the two together, and
`Editor.commit_moves_attributes` is the main statement.

An offset that nothing is kept or inserted at or behind goes to the end of the
code, as the end of a span does.  `Editor.commit_aligned` says that this is the
only way in which an attribute comes to point outside the instructions.
-/

namespace Cleartext

/-! ## Sites -/

namespace Layout

section

variable (F : Int → Int → Prop) (H : Nat → Nat → Prop)

/-- What stands at a site has moved: places of the code as `F` says, and rows of
the exception table as `H` says.  A span is its start and the distance to its
end. -/
def Site.Moved (site : Site) (info info' : Bytes) : Prop :=
  let word (pos : Nat) : Nat := (info.u16At pos).toNat
  let word' (pos : Nat) : Nat := (info'.u16At pos).toNat
  let pos := site.position
  match site.kind with
  | .reference => word' pos = word pos
  | .offset => F (word pos) (word' pos)
  | .span => F (word pos) (word' pos) ∧
      F (word pos + word (pos + 2) : Nat) (word' pos + word' (pos + 2) : Nat)
  | .handler => H (word pos) (word' pos)

/-- A body of known layout in which the places of the code and the rows of the
exception table have moved, and nothing else has changed. -/
structure Moved (pool : Pool) (name : String) (info info' : Bytes) : Prop where
  visited : (visit pool name info).failure = none
  revisited : visit pool name info' = visit pool name info
  length : info'.length = info.length
  sites : ∀ site ∈ (visit pool name info).sites, site.Moved F H info info'
  others : ∀ k, (∀ site ∈ (visit pool name info).sites, ¬ site.Covers k) → info'[k]? = info[k]?

end

variable {F : Int → Int → Prop} {H : Nat → Nat → Prop}

/-- Only the bytes of a site decide whether what stands there has moved. -/
theorem Site.Moved.congr {site : Site} {a a' b b' : Bytes} (h : site.Moved F H a a')
    (hb : ∀ k, site.position ≤ k → k < site.position + site.kind.width → b[k]? = a[k]?)
    (hb' : ∀ k, site.position ≤ k → k < site.position + site.kind.width → b'[k]? = a'[k]?) :
    site.Moved F H b b' := by
  obtain ⟨kind, position, nested⟩ := site
  have hwidth := kind.two_le_width
  simp only at hb hb'
  have hfirst : b.u16At position = a.u16At position :=
    Bytes.u16At_congr (hb _ le_rfl (by omega)) (hb _ (by omega) (by omega))
  have hfirst' : b'.u16At position = a'.u16At position :=
    Bytes.u16At_congr (hb' _ le_rfl (by omega)) (hb' _ (by omega) (by omega))
  unfold Site.Moved at h ⊢
  cases kind with
  | span =>
    have hfour : SiteKind.span.width = 4 := rfl
    have hsecond : b.u16At (position + 2) = a.u16At (position + 2) :=
      Bytes.u16At_congr (hb _ (by omega) (by omega)) (hb _ (by omega) (by omega))
    have hsecond' : b'.u16At (position + 2) = a'.u16At (position + 2) :=
      Bytes.u16At_congr (hb' _ (by omega) (by omega)) (hb' _ (by omega) (by omega))
    simp only [hfirst, hfirst', hsecond, hsecond']
    exact h
  | _ =>
    simp only [hfirst, hfirst']
    exact h

end Layout

/-! ## Patching -/

/-- A word inside a patch. -/
theorem Bytes.u16At_overwrite_append (front : Bytes) (v : UInt16) (back : Bytes) {bytes : Bytes}
    {pos : Nat} (h : pos + front.length + 2 ≤ bytes.length) :
    (overwrite bytes pos (front ++ ofU16 v ++ back)).u16At (pos + front.length) = v := by
  have hbyte (k : Nat) (hk : k < 2) :
      (overwrite bytes pos (front ++ ofU16 v ++ back))[pos + front.length + k]? =
        (ofU16 v)[k]? := by
    rw [getElem?_overwrite, if_pos (by simp only [List.length_append, ofU16_length]; omega),
      show pos + front.length + k - pos = front.length + k by omega, List.append_assoc,
      List.getElem?_append_right (by omega), Nat.add_sub_cancel_left,
      List.getElem?_append_left (by simpa using hk)]
  have hzero := hbyte 0 (by omega)
  rw [Nat.add_zero] at hzero
  rw [u16At_eq, hzero, hbyte 1 (by omega)]
  exact toU16_ofU16 v

/-- What is needed of a relocation: it moves places as `F` says, in order and
within the reach of a word, and rows as `H` says, and it fails only because of
the layout of an edit. -/
structure Relocation.Follows (r : Relocation) (F : Int → Int → Prop) (H : Nat → Nat → Prop) :
    Prop where
  offset : ∀ t t', r.offset t = .ok t' → F t t' ∧ 0 ≤ t' ∧ t' < 65536
  ordered : ∀ t t' u u', F t t' → F u u' → t ≤ u → t' ≤ u'
  handler : ∀ i j, r.handler i = .ok j → H i j ∧ j ≤ i
  refusesOffset : ∀ t, Refuses (r.offset t)
  refusesHandler : ∀ i, Refuses (r.handler i)

theorem Error.root_of_isStructural {name : String} :
    ∀ e : Error, e.isStructural = true → e.root ≠ .unknownAttribute name
  | .within _ cause, h => root_of_isStructural cause h
  | .structural .., _ => by simp [Error.root]
  | .unfit .., _ => by simp [Error.root]

namespace Relocation

variable {r : Relocation} {F : Int → Int → Prop} {H : Nat → Nat → Prop}

theorem Follows.refuses_site (hr : r.Follows F H) (site : Layout.Site) (info : Bytes) :
    Refuses (r.site site info) := by
  unfold Relocation.site
  simp only
  split
  · exact .ok _
  · exact (hr.refusesOffset _).bind fun _ => .ok _
  · exact (hr.refusesOffset _).bind fun _ => (hr.refusesOffset _).bind fun _ => .ok _
  · exact (hr.refusesHandler _).bind fun _ => .ok _

/-- Patching a site moves what stands there. -/
theorem Follows.site (hr : r.Follows F H) {site : Layout.Site} {info new : Bytes}
    (hinside : site.position + site.kind.width ≤ info.length)
    (h : r.site site info = .ok new) :
    site.Moved F H info (info.overwrite site.position new) ∧
      (site.kind = .reference → new = []) ∧ new.length ≤ site.kind.width := by
  obtain ⟨kind, pos, nested⟩ := site
  change pos + kind.width ≤ info.length at hinside
  unfold Relocation.site at h
  cases kind with
  | reference =>
    obtain rfl := Except.pure_ok.1 h
    refine ⟨?_, fun _ => rfl, Nat.zero_le _⟩
    rw [Bytes.overwrite_nil]
    exact rfl
  | offset =>
    obtain ⟨t, ht, h⟩ := Except.bind_ok.1 h
    obtain rfl := Except.pure_ok.1 h
    obtain ⟨hF, hlow, hhigh⟩ := hr.offset _ _ ht
    refine ⟨?_, nofun, le_rfl⟩
    show F _ (((info.overwrite pos (Bytes.ofU16 (UInt16.ofInt t))).u16At pos).toNat : Nat)
    rw [Bytes.u16At_overwrite hinside, toNat_ofInt_u16 hlow hhigh]
    exact hF
  | span =>
    obtain ⟨start, hstart, h⟩ := Except.bind_ok.1 h
    obtain ⟨stop, hstop, h⟩ := Except.bind_ok.1 h
    obtain rfl := Except.pure_ok.1 h
    obtain ⟨hF, hlow, hhigh⟩ := hr.offset _ _ hstart
    obtain ⟨hF', hlow', hhigh'⟩ := hr.offset _ _ hstop
    -- The end does not come before the start, so the distance is not negative.
    have hle : start ≤ stop := hr.ordered _ _ _ _ hF hF' (by omega)
    change pos + 4 ≤ info.length at hinside
    have hfirst : (info.overwrite pos (Bytes.ofU16 (UInt16.ofInt start) ++
        Bytes.ofU16 (UInt16.ofInt (stop - start)))).u16At pos = UInt16.ofInt start :=
      Bytes.u16At_overwrite_append [] _ _ (show pos + 0 + 2 ≤ info.length by omega)
    have hsecond : (info.overwrite pos (Bytes.ofU16 (UInt16.ofInt start) ++
        Bytes.ofU16 (UInt16.ofInt (stop - start)))).u16At (pos + 2) =
          UInt16.ofInt (stop - start) := by
      have happend := Bytes.u16At_overwrite_append (Bytes.ofU16 (UInt16.ofInt start))
        (UInt16.ofInt (stop - start)) [] (show pos + 2 + 2 ≤ info.length by omega)
      rwa [List.append_nil] at happend
    have hstart' := toNat_ofInt_u16 hlow hhigh
    have hlength' := toNat_ofInt_u16 (n := stop - start) (by omega) (by omega)
    refine ⟨?_, nofun, le_rfl⟩
    unfold Layout.Site.Moved
    simp only [hfirst, hsecond]
    refine ⟨by rwa [hstart'], ?_⟩
    rw [Int.natCast_add, Int.natCast_add, hstart', hlength', add_sub_cancel]
    exact hF'
  | handler =>
    obtain ⟨j, hj, h⟩ := Except.bind_ok.1 h
    obtain rfl := Except.pure_ok.1 h
    obtain ⟨hH, hle⟩ := hr.handler _ _ hj
    change j ≤ (info.u16At pos).toNat at hle
    have hword : j.toUInt16.toNat = j := UInt16.toNat_ofNat_of_lt' (by
      show j < 65536
      have hlt := (info.u16At pos).toNat_lt
      omega)
    refine ⟨?_, nofun, le_rfl⟩
    show H _ ((info.overwrite pos (Bytes.ofU16 j.toUInt16)).u16At pos).toNat
    rw [Bytes.u16At_overwrite hinside, hword]
    exact hH

/-- Patching one more site, which stands in front of the others. -/
theorem moved_cons {site : Layout.Site} {sites : List Layout.Site} {info new info' : Bytes}
    (hlater : ∀ later ∈ sites, site.position + site.kind.width ≤ later.position)
    (hsite : site.Moved F H info (info.overwrite site.position new))
    (hreference : site.kind = .reference → new = []) (hwidth : new.length ≤ site.kind.width)
    (hsites : ∀ later ∈ sites, later.Moved F H (info.overwrite site.position new) info')
    (hothers : ∀ k, (∀ later ∈ sites, ¬ later.Covers k) →
      info'[k]? = (info.overwrite site.position new)[k]?) :
    (∀ s ∈ site :: sites, s.Moved F H info info') ∧
      ∀ k, (∀ s ∈ site :: sites, ¬ s.Covers k) → info'[k]? = info[k]? := by
  refine ⟨List.forall_mem_cons.2 ⟨?_, fun later hmem => ?_⟩, fun k hk => ?_⟩
  · refine hsite.congr (fun _ _ _ => rfl) fun k _ hk => hothers k fun later hmem hcovers => ?_
    have hle := hlater later hmem
    have hlow := hcovers.2.1
    omega
  · refine (hsites later hmem).congr (fun k hlow _ => ?_) fun _ _ _ => rfl
    have hle := hlater later hmem
    exact (Bytes.getElem?_overwrite_of_lt (.inr (by omega))).symm
  · rw [List.forall_mem_cons] at hk
    rw [hothers k hk.2]
    by_cases hkind : site.kind = .reference
    · rw [hreference hkind, Bytes.overwrite_nil]
    · refine Bytes.getElem?_overwrite_of_lt ?_
      by_contra hbetween
      exact hk.1 ⟨hkind, by omega, by omega⟩

/-- The change that a relocation makes at a site. -/
def change (r : Relocation) (site : Layout.Site) (info : Bytes) :
    Layout.Change Unit Bytes :=
  monadLift (r.site site info)

theorem run_change (r : Relocation) (site : Layout.Site) (info : Bytes) :
    (r.change site info).run () = (r.site site info).map fun new => (new, ()) := by
  unfold change
  cases r.site site info <;> rfl

/-- Sites that are spread are patched one after another without touching each
other. -/
theorem Follows.rewriteSites (hr : r.Follows F H) (name : String) {sites : List Layout.Site}
    {info info' : Bytes}
    (hspaced : sites.Pairwise fun earlier later =>
      earlier.position + earlier.kind.width ≤ later.position)
    (hinside : ∀ site ∈ sites, site.position + site.kind.width ≤ info.length)
    (h : (Layout.rewriteSites name r.change sites info).run () = .ok (info', ())) :
    info'.length = info.length ∧ (∀ site ∈ sites, site.Moved F H info info') ∧
      ∀ k, (∀ site ∈ sites, ¬ site.Covers k) → info'[k]? = info[k]? := by
  induction sites generalizing info with
  | nil =>
    obtain ⟨rfl, -⟩ := Prod.mk.inj (Except.ok.inj h)
    exact ⟨rfl, by simp, fun _ _ => rfl⟩
  | cons site sites ih =>
    rw [List.pairwise_cons] at hspaced
    rw [List.forall_mem_cons] at hinside
    unfold Layout.rewriteSites at h
    rw [StateT.run_bind] at h
    obtain ⟨⟨new, _⟩, hnew, h⟩ := Except.bind_ok.1 h
    have hsite : r.site site info = .ok new := by
      change ((r.change site info).run ()).mapError _ = _ at hnew
      rw [run_change] at hnew
      cases hresult : r.site site info with
      | error e => rw [hresult] at hnew; cases hnew
      | ok answer =>
        rw [hresult] at hnew
        rw [(Prod.mk.inj (Except.ok.inj hnew)).1]
    obtain ⟨hmoved, hreference, hwidth⟩ := hr.site hinside.1 hsite
    obtain ⟨hlength, hsites, hothers⟩ := ih hspaced.2
      (by rw [Bytes.overwrite_length]; exact hinside.2) h
    exact ⟨by rw [hlength, Bytes.overwrite_length],
      moved_cons hspaced.1 hmoved hreference hwidth hsites hothers⟩

/-- A patch that fails does so because of the layout of an edit. -/
theorem Follows.refuses_rewriteSites (hr : r.Follows F H) (name : String)
    (sites : List Layout.Site) (info : Bytes) :
    Refuses ((Layout.rewriteSites name r.change sites info).run ()) := by
  induction sites generalizing info with
  | nil => exact .ok _
  | cons site sites ih =>
    unfold Layout.rewriteSites
    rw [StateT.run_bind]
    refine .bind ?_ fun answer => ih _
    change Refuses (((r.change site info).run ()).mapError _)
    rw [run_change]
    have hrefuses := hr.refuses_site site info
    cases hresult : r.site site info with
    | ok new => exact .ok _
    | error e =>
      have he := hrefuses e hresult
      refine .error ?_
      split
      · exact he
      · exact he

/-- A body of known layout is moved, and one of unknown layout is told apart. -/
theorem Follows.rewrite (hr : r.Follows F H) (pool : Pool) (name : String) (info : Bytes) :
    (∀ info', (Layout.rewrite pool name r.change info).run () = .ok (info', ()) →
        Layout.Moved F H pool name info info') ∧
      ∀ e other, (Layout.rewrite pool name r.change info).run () = .error e →
        e.root = .unknownAttribute other → (Layout.visit pool name info).failure = some e := by
  unfold Layout.rewrite
  simp only [StateT.run_bind]
  constructor
  · intro info' h
    obtain ⟨⟨result, _⟩, hresult, h⟩ := Except.bind_ok.1 h
    cases hfailure : (Layout.visit pool name info).failure with
    | some e =>
      rw [hfailure] at h
      cases h
    | none =>
      rw [hfailure] at h
      obtain ⟨rfl, -⟩ := Prod.mk.inj (Except.ok.inj h)
      obtain ⟨hlength, hsites, hothers⟩ := hr.rewriteSites name
        (Layout.ordered_visit pool name info) (Layout.inside_visit pool name info) hresult
      exact ⟨hfailure, Layout.visit_congr hfailure hlength hothers, hlength, hsites, hothers⟩
  · intro e other h hroot
    cases hresult : (Layout.rewriteSites name r.change (Layout.visit pool name info).sites
        info).run () with
    | error e' =>
      rw [hresult] at h
      obtain rfl := Except.error.inj h
      exact absurd hroot (Error.root_of_isStructural _
        (hr.refuses_rewriteSites name _ info _ hresult))
    | ok answer =>
      rw [hresult] at h
      cases hfailure : (Layout.visit pool name info).failure with
      | some e' =>
        rw [hfailure] at h
        obtain rfl := Except.error.inj h
        rfl
      | none =>
        rw [hfailure] at h
        cases h

end Relocation

/-! ## Attributes -/

/-- An attribute of a body with what it says of the code moved: the frames of a
stack map, the sites of any other body of known layout, and nothing of a body of
unknown layout. -/
inductive Attribute.Moved (F : Int → Int → Prop) (H : Nat → Nat → Prop) (pool : Pool) :
    Attribute → Attribute → Prop
  | stackMap {i : UInt16} {info info' : Bytes} {frames frames' : List StackMap.Frame}
      (hparse : StackMap.parse info = .ok frames) (hparse' : StackMap.parse info' = .ok frames')
      (hframes : List.Forall₂ (StackMap.Frame.Moved F) frames frames') :
      Moved F H pool (.raw i "StackMapTable" info) (.raw i "StackMapTable" info')
  | known {i : UInt16} {name : String} {info info' : Bytes} (hname : name ≠ "StackMapTable")
      (hinfo : Layout.Moved F H pool name info info') :
      Moved F H pool (.raw i name info) (.raw i name info')
  | unknown {i : UInt16} {name other : String} {info : Bytes} {e : Error}
      (hname : name ∉ Layout.fixed) (hfailure : (Layout.visit pool name info).failure = some e)
      (hroot : e.root = .unknownAttribute other) :
      Moved F H pool (.raw i name info) (.raw i name info)

theorem Relocation.Follows.attribute {r : Relocation} {F : Int → Int → Prop}
    {H : Nat → Nat → Prop} (hr : r.Follows F H) {pool : Pool} {a a' : Attribute}
    (h : r.attribute_ pool a = .ok a') : Attribute.Moved F H pool a a' := by
  cases a with
  | code i name body => cases h
  | raw i name info =>
    simp only [Relocation.attribute_] at h
    split at h
    · rename_i hname
      subst hname
      obtain ⟨info', hinfo', h⟩ := Except.bind_ok.1 h
      obtain rfl := Except.pure_ok.1 h
      obtain ⟨frames, frames', hparse, hparse', hframes⟩ := StackMap.relocate_ok hr.offset hinfo'
      exact .stackMap hparse hparse' hframes
    · rename_i hname
      obtain ⟨hmoved, hunknown⟩ := hr.rewrite pool name info
      split at h
      · rename_i info' hrun
        obtain rfl := Except.ok.inj h
        exact .known hname (hmoved info' hrun)
      · rename_i e hrun
        split at h
        · rename_i other hroot
          obtain rfl := Except.ok.inj h
          have hfailure := hunknown e other hrun hroot
          exact .unknown (fun hfixed => Layout.known_of_fixed hfixed hfailure hroot) hfailure hroot
        · cases h

/-! ## Offsets of instructions -/

namespace StackMap

/-- The offsets of instructions that a type names. -/
def VerificationType.offsets : VerificationType → List Int
  | .uninitialized o => [o.toNat]
  | _ => []

/-- The types that a frame lists. -/
def FrameKind.types : FrameKind → List VerificationType
  | .sameLocals1 _ stack => stack
  | .append locals => locals
  | .full locals stack => locals ++ stack
  | _ => []

/-- The offsets of instructions that a frame names, its own first. -/
def Frame.offsets (f : Frame) : List Int :=
  f.offset :: f.kind.types.flatMap VerificationType.offsets

variable {F : Int → Int → Prop}

theorem VerificationType.Moved.offsets {t t' : VerificationType} (h : t.Moved F t') :
    List.Forall₂ F t.offsets t'.offsets := by
  cases h with
  | plain tag | object index => exact .nil
  | uninitialized h => exact .cons h .nil

theorem FrameKind.Moved.types {k k' : FrameKind} (h : k.Moved F k') :
    List.Forall₂ (VerificationType.Moved F) k.types k'.types := by
  cases h with
  | same | chop | undefined => exact .nil
  | sameLocals1 _ hstack => exact hstack
  | append hlocals => exact hlocals
  | full hlocals hstack => exact List.rel_append hlocals hstack

theorem Frame.Moved.offsets {f f' : Frame} (h : f.Moved F f') :
    List.Forall₂ F f.offsets f'.offsets :=
  .cons h.offset (List.rel_flatMap h.kind.types fun _ _ => VerificationType.Moved.offsets)

end StackMap

/-- The offsets of instructions that an attribute of known layout names. -/
def Attribute.offsets (pool : Pool) : Attribute → List Int
  | .code .. => []
  | .raw _ name info =>
    if name = "StackMapTable" then
      ((StackMap.parse info).toOption.getD []).flatMap StackMap.Frame.offsets
    else
      let survey := Layout.visit pool name info
      if survey.failure.isNone then
        (survey.sites.filter fun site => site.kind = .offset).map fun site =>
          ((info.u16At site.position).toNat : Int)
      else []

/-- The offsets of instructions that the attributes of a body name. -/
def MethodBody.offsets (pool : Pool) (body : MethodBody) : List Int :=
  body.attributes.flatMap (Attribute.offsets pool)

theorem Attribute.Moved.offsets {F : Int → Int → Prop} {H : Nat → Nat → Prop} {pool : Pool}
    {a a' : Attribute} (h : a.Moved F H pool a') :
    List.Forall₂ F (a.offsets pool) (a'.offsets pool) := by
  cases h with
  | stackMap hparse hparse' hframes =>
    simp only [Attribute.offsets, if_pos, hparse, hparse', Except.toOption, Option.getD_some]
    exact List.rel_flatMap hframes fun _ _ => StackMap.Frame.Moved.offsets
  | known hname hinfo =>
    simp only [Attribute.offsets, if_neg hname, hinfo.revisited, hinfo.visited, Option.isNone_none,
      if_pos]
    rw [List.forall₂_map_left_iff, List.forall₂_map_right_iff, List.forall₂_same]
    intro site hsite
    rw [List.mem_filter, decide_eq_true_eq] at hsite
    have hmoved := hinfo.sites site hsite.1
    unfold Layout.Site.Moved at hmoved
    simpa only [hsite.2] using hmoved
  | @unknown i name other info e hname hfailure hroot =>
    have hstackMap : name ≠ "StackMapTable" := by
      rintro rfl
      exact hname (by decide)
    simp only [Attribute.offsets, if_neg hstackMap, hfailure, Option.isNone_some,
      Bool.false_eq_true, if_false]
    exact .nil

/-! ## Commits -/

/-- The body `body'` carries out some edits of `body`, whose instructions are
`old`, and `new` are its instructions.

Every place of the old code goes to a place of the new one, and places keep
their order.  The exception table and the attributes follow. -/
structure Edit.Relocated (edits : List Edit) (pool : Pool) (old : List Instruction)
    (body : MethodBody) (new : List Instruction) (body' : MethodBody) : Prop where
  laidOut : LaidOut edits old new body'.bytecode
  starts : ∀ ins ∈ old,
    ∃ t', Follows edits old new body.bytecode.length body'.bytecode.length ins.offset t'
  stop : Follows edits old new body.bytecode.length body'.bytecode.length body.bytecode.length
    body'.bytecode.length
  ordered : ∀ t t' u u', Follows edits old new body.bytecode.length body'.bytecode.length t t' →
    Follows edits old new body.bytecode.length body'.bytecode.length u u' → t ≤ u → t' ≤ u'
  handlers : Rows edits old new body.bytecode.length body'.bytecode.length
    body.handlers body'.handlers
  attributes : List.Forall₂
    (Attribute.Moved (Follows edits old new body.bytecode.length body'.bytecode.length)
      (RowIndex edits old new body.bytecode.length body'.bytecode.length body.handlers
        body'.handlers) pool)
    body.attributes body'.attributes

namespace Editor

/-- Laying out a plan moves the attributes of the body. -/
theorem Plans.relocated {e : Editor} {edits : List Edit} {old : List Instruction} {pool : Pool}
    {body' : MethodBody} (h : e.Plans edits old)
    (hold : Instruction.decodeAll e.body.bytecode = .ok old)
    (hedited : e.edited pool = .ok body') :
    ∃ new, Edit.Relocated edits pool old e.body new body' := by
  obtain ⟨new, hlaidOut, hoffsets, hnewLength⟩ := h.laidOut hedited
  obtain ⟨⟨-, hbound⟩, -⟩ := edited_ok hedited
  obtain ⟨handlers, indices, hhandlers, rfl, hattributes⟩ := edited_attributes hedited
  have hlength := hlaidOut.length_eq
  have hnew := hlaidOut.consecutive
  have hold : Consecutive 0 old e.body.bytecode.length := by
    have hconsecutive := (Instruction.decodeAll_ok.1 hold).consecutive
    rwa [Nat.zero_add] at hconsecutive
  have hordered (t t' u u' : Int)
      (ht : Edit.Follows edits old new e.body.bytecode.length body'.bytecode.length t t')
      (hu : Edit.Follows edits old new e.body.bytecode.length body'.bytecode.length u u') :
      t ≤ u → t' ≤ u' :=
    ht.mono hlength hold hnew hu
  have hrows := (h.handlers hbound _ _ _ _ hhandlers).congr hoffsets
  rw [hnewLength] at hrows
  have hfollows : Relocation.Follows ⟨e.newLayout.offset, handlerMap indices⟩
      (Edit.Follows edits old new e.body.bytecode.length body'.bytecode.length)
      (Edit.RowIndex edits old new e.body.bytecode.length body'.bytecode.length e.body.handlers
        body'.handlers) := by
    refine ⟨fun t t' ht => ?_, hordered, fun i j hij => ?_, e.newLayout.refuses_offset,
      fun i => ?_⟩
    · have hplace := (h.offset ht).congr hoffsets
      rw [hnewLength] at hplace
      have hbounds := hplace.bounds hnew
      exact ⟨hplace, hbounds.1, by omega⟩
    · obtain ⟨k, hk, hj, hrow⟩ := h.rowIndex hbound hhandlers (handlerMap_ok.1 hij)
      have hrow := hrow.congr hoffsets
      rw [hnewLength] at hrow
      rw [Nat.zero_add] at hj
      subst hj
      exact ⟨hrow, hk⟩
    · show Refuses (handlerMap indices i)
      unfold handlerMap
      split
      · exact .ok _
      · exact .error rfl
  refine ⟨new, hlaidOut, fun ins hins => ?_, ?_, hordered, hrows, ?_⟩
  · obtain ⟨m, hm⟩ := List.getElem?_of_mem hins
    have hplace := Edit.follows_place hlength e.body.bytecode.length body'.bytecode.length
      (List.getElem?_eq_some_iff.1 hm).1.le
    rw [placeAt_of_getElem? hm] at hplace
    exact ⟨_, hplace⟩
  · exact .inr ⟨rfl, .inl rfl⟩
  · exact hattributes.imp fun a a' ha => hfollows.attribute ha

/-- A commit moves every attribute of the body.  When no call was made at the
start of an instruction there is nothing to move, and the editor stays as it is. -/
theorem commit_moves_attributes {body : MethodBody} {e e' : Editor} {edits : List Edit}
    {pool : Pool} (hnew : Editor.new body = .ok e)
    (hcommit : (e.attemptAll edits).commit pool = .ok e') :
    (∀ edit ∈ edits, ∀ ins ∈ e.instructions, (ins.offset : Int) ≠ edit.offset) ∧ e' = e ∨
      ∃ new, Edit.Relocated edits pool e.instructions body new e'.body := by
  obtain ⟨old, hold, rfl⟩ := new_ok.1 hnew
  rw [instructions_mk]
  rcases commit_cases hcommit with hunstaged | ⟨-, hedited⟩
  · exact .inl hunstaged
  · have hbody := attemptAll_body ⟨body, old.map fun ins => { original := ins }⟩ edits
    obtain ⟨new, hrelocated⟩ := (attemptAll_plans body old edits).relocated (by rwa [hbody]) hedited
    rw [hbody] at hrelocated
    exact .inr ⟨new, hrelocated⟩

/-- A jump to the last instruction, which is covered by an exception handler.
Its attributes name instructions, a span, a row and a frame. -/
private def annotated : MethodBody :=
  { maxStack := 0, maxLocals := 0, bytecode := [0xa7, 0, 4, 0, 0xb1], handlers := [⟨0, 3, 4, 0⟩]
    attributes := [
      .raw 0 "LineNumberTable" [0, 2, 0, 0, 0, 1, 0, 4, 0, 2],
      .raw 0 "LocalVariableTable" [0, 1, 0, 0, 0, 5, 0, 0, 0, 0, 0, 0],
      .raw 0 "RuntimeVisibleTypeAnnotations" [0, 1, 0x42, 0, 0, 0, 0, 0, 0, 0],
      .raw 0 "StackMapTable" [0, 1, 4],
      .raw 0 "Custom" [0, 4]] }

/-- Seventy instructions in front of the one that is jumped over, which take the
frame out of reach of its short form. -/
private def widening : List Edit :=
  [.insert 3 (List.replicate 70 { op := .nop, operand := (.none : Operand .none) })]

/-- The attributes follow the instruction that is pushed back. -/
theorem commit_moves_attributes_annotated :
    ∃ e e' new, Editor.new annotated = .ok e ∧
      (e.attemptAll widening).commit Pool.empty = .ok e' ∧
      Edit.Relocated widening Pool.empty e.instructions annotated new e'.body := by
  have hrun : ((Editor.new annotated).toOption.map fun e =>
      (((e.attemptAll widening).commit Pool.empty).toOption.isSome,
        e.instructions.any fun ins => ins.offset = 3)) = some (true, true) := by
    decide +kernel
  cases hnew : Editor.new annotated with
  | error err => simp [hnew, Except.toOption] at hrun
  | ok e =>
    cases hcommit : (e.attemptAll widening).commit Pool.empty with
    | error err => simp [hnew, hcommit, Except.toOption] at hrun
    | ok e' =>
      simp only [hnew, hcommit, Except.toOption, Option.map_some, Option.isSome_some,
        Option.some.injEq, Prod.mk.injEq, true_and, List.any_eq_true, decide_eq_true_eq] at hrun
      obtain ⟨ins, hins, hoffset⟩ := hrun
      rcases commit_moves_attributes hnew hcommit with hunstaged | ⟨new, hrelocated⟩
      · exact absurd (by simp [hoffset, Edit.offset])
          (hunstaged.1 _ (List.mem_singleton.2 rfl) ins hins)
      · exact ⟨e, e', new, rfl, hcommit, hrelocated⟩

/-- Without an edit nothing is checked: a line number may start at an offset that
is neither the start of an instruction nor the end of the code, and so has no
place to go. -/
theorem commit_unstaged_keeps_stray_offset :
    ∃ e, Editor.new ⟨0, 0, [0xb1], [],
        [.raw 0 "LineNumberTable" [0, 2, 0, 0, 0, 1, 0, 100, 0, 2]]⟩ = .ok e ∧
      (e.attemptAll []).commit Pool.empty = .ok e ∧
      ∃ o ∈ e.body.offsets Pool.empty, ∀ new newLength t',
        ¬ Edit.Follows [] e.instructions new e.body.bytecode.length newLength o t' := by
  refine ⟨⟨⟨0, 0, [0xb1], [], [.raw 0 "LineNumberTable" [0, 2, 0, 0, 0, 1, 0, 100, 0, 2]]⟩,
    [{ original := { op := ⟨0xb1⟩, operand := (.none : Operand .none) } }]⟩, ?_, ?_, 100, ?_, ?_⟩
  · rfl
  · rfl
  · decide +kernel
  · -- The only instruction starts at zero, and the code ends at one.
    intro new newLength t' hfollows
    have hstart {m : Nat} {ins : Instruction}
        (hins : [({ op := ⟨0xb1⟩, operand := (.none : Operand .none) } : Instruction)][m]? =
          some ins) : ins.offset = 0 := by
      obtain rfl := List.mem_singleton.1 (List.mem_of_getElem? hins)
      rfl
    rcases hfollows with ⟨m, ins, _, hins, ht, -⟩ | ⟨-, hend | ⟨m, ins, hins, ht, -⟩⟩
    · have hzero := hstart hins
      omega
    · exact absurd hend (by decide)
    · have hzero := hstart hins
      omega

/-! ## Alignment -/

end Editor

theorem Edit.Relocated.offsets {edits : List Edit} {pool : Pool} {old new : List Instruction}
    {body body' : MethodBody} (h : Relocated edits pool old body new body') :
    List.Forall₂ (Follows edits old new body.bytecode.length body'.bytecode.length)
      (body.offsets pool) (body'.offsets pool) :=
  List.rel_flatMap h.attributes fun _ _ => Attribute.Moved.offsets

private theorem forall_mem_iff {α β : Type} {R : α → β → Prop} {P : α → Prop} {Q : β → Prop}
    {a : List α} {b : List β} (h : List.Forall₂ R a b) (hstep : ∀ x y, R x y → (P x ↔ Q y)) :
    (∀ x ∈ a, P x) ↔ ∀ y ∈ b, Q y := by
  induction h with
  | nil => simp
  | cons hxy _ ih => rw [List.forall_mem_cons, List.forall_mem_cons, hstep _ _ hxy, ih]

namespace Editor

/-- A commit moves the offsets of instructions that the attributes name, if they
are such offsets. -/
theorem commit_offsets {body : MethodBody} {old : List Instruction} {e' : Editor}
    {edits : List Edit} {pool : Pool} (hold : Instruction.decodeAll body.bytecode = .ok old)
    (hstarts : ∀ o ∈ body.offsets pool, ∃ ins ∈ old, (ins.offset : Int) = o)
    (hcommit : (attemptAll ⟨body, old.map fun ins => { original := ins }⟩ edits).commit pool =
      .ok e') :
    ∃ new, Edit.LaidOut edits old new e'.body.bytecode ∧
      List.Forall₂ (Edit.Follows edits old new body.bytecode.length e'.body.bytecode.length)
        (body.offsets pool) (e'.body.offsets pool) := by
  rcases commit_cases hcommit with ⟨hunstaged, rfl⟩ | ⟨-, hedited⟩
  · refine ⟨old, Edit.laidOut_of_unstaged hunstaged hold, List.forall₂_same.2 fun o ho => ?_⟩
    obtain ⟨ins, hins, rfl⟩ := hstarts o ho
    exact .inl (Edit.lands_of_unstaged hunstaged hins)
  · have hbody := attemptAll_body ⟨body, old.map fun ins => { original := ins }⟩ edits
    obtain ⟨new, hrelocated⟩ := (attemptAll_plans body old edits).relocated (by rwa [hbody]) hedited
    rw [hbody] at hrelocated
    exact ⟨new, hrelocated.laidOut, hrelocated.offsets⟩

/-- When the attributes of a body name instruction starts, a commit that is not
refused leaves them at instruction starts or at the end of the code.  They are
all at instruction starts exactly when something is kept or inserted at or behind
each of the instructions that they named. -/
theorem commit_aligned {body : MethodBody} {e : Editor} {edits : List Edit} {pool : Pool}
    (hnew : Editor.new body = .ok e)
    (hstarts : ∀ o ∈ body.offsets pool, ∃ ins ∈ e.instructions, (ins.offset : Int) = o) :
    match (e.attemptAll edits).commit pool with
    | .error err => err.isStructural = true
    | .ok e' => ∃ new, Edit.LaidOut edits e.instructions new e'.body.bytecode ∧
        (∀ ins ∈ new, ins.offset < e'.body.bytecode.length) ∧
        (∀ o ∈ e'.body.offsets pool,
          (∃ ins ∈ new, (ins.offset : Int) = o) ∨ o = e'.body.bytecode.length) ∧
        ((∀ o ∈ e'.body.offsets pool, ∃ ins ∈ new, (ins.offset : Int) = o) ↔
          ∀ o ∈ body.offsets pool, ∃ o', Edit.Lands edits e.instructions new o o') := by
  obtain ⟨old, hold, rfl⟩ := new_ok.1 hnew
  rw [instructions_mk] at hstarts ⊢
  have hold' : Consecutive 0 old body.bytecode.length := by
    have hconsecutive := (Instruction.decodeAll_ok.1 hold).consecutive
    rwa [Nat.zero_add] at hconsecutive
  cases hcommit : (attemptAll ⟨body, old.map fun ins => { original := ins }⟩ edits).commit pool with
  | error err => exact commit_refuses _ pool err hcommit
  | ok e' =>
    obtain ⟨new, hlaidOut, hoffsets⟩ := commit_offsets hold hstarts hcommit
    have hlength := hlaidOut.length_eq
    have hnew' := hlaidOut.consecutive
    refine ⟨new, hlaidOut, hnew'.lt, ?_, ?_⟩
    · refine (forall_mem_iff (P := fun _ => True) hoffsets fun o o' ho => ?_).1 fun _ _ => True.intro
      exact iff_of_true True.intro ho.start_or_end
    · exact (forall_mem_iff hoffsets fun o o' ho => ho.lands_iff hlength hold' hnew').symm

/-- Two instructions, at each of which a line number starts. -/
private def twoLines : MethodBody :=
  ⟨0, 0, [0, 0xb1], [], [.raw 0 "LineNumberTable" [0, 2, 0, 0, 0, 1, 0, 1, 0, 2]]⟩

/-- The instructions of the two lines. -/
private def twoLinesEditor : Editor :=
  ⟨twoLines, [{ original := { op := .nop, operand := (.none : Operand .none) } },
    { original := { op := ⟨0xb1⟩, operand := (.none : Operand .none), offset := 1 } }]⟩

/-- Deleting the last instruction leaves a line number that starts at the end of
the code. -/
theorem commit_aligned_cut_short :
    ∃ e e' new, Editor.new twoLines = .ok e ∧
      (∀ o ∈ twoLines.offsets Pool.empty, ∃ ins ∈ e.instructions, (ins.offset : Int) = o) ∧
      (e.attemptAll [.delete 1]).commit Pool.empty = .ok e' ∧
      Edit.LaidOut [.delete 1] e.instructions new e'.body.bytecode ∧
      ¬ ∀ o ∈ e'.body.offsets Pool.empty, ∃ ins ∈ new, (ins.offset : Int) = o := by
  have hoffsets : twoLines.offsets Pool.empty = [0, 1] := by decide +kernel
  have hnew : Editor.new twoLines = .ok twoLinesEditor := rfl
  have hstarts : ∀ o ∈ twoLines.offsets Pool.empty,
      ∃ ins ∈ twoLinesEditor.instructions, (ins.offset : Int) = o := by
    rw [hoffsets]
    decide
  have hrun : ((twoLinesEditor.attemptAll [.delete 1]).commit Pool.empty).toOption.isSome = true := by
    decide +kernel
  have haligned := @commit_aligned _ _ [.delete 1] Pool.empty hnew hstarts
  split at haligned
  · rename_i err hcommit
    rw [hcommit] at hrun
    cases hrun
  · rename_i e' hcommit
    obtain ⟨new, hlaidOut, -, -, hiff⟩ := haligned
    refine ⟨_, e', new, hnew, hstarts, hcommit, hlaidOut, fun hall => ?_⟩
    obtain ⟨o', m, ins, ins', hins, ht, hins', -⟩ := hiff.1 hall 1 (by rw [hoffsets]; simp)
    -- Only the second instruction starts there, and one is left.
    obtain rfl : m = 1 := by
      match m, hins with
      | 0, hins =>
        obtain rfl := Option.some.inj hins
        exact absurd ht (by decide)
      | 1, _ => rfl
    have hone : new.length = 1 := hlaidOut.length_eq
    have hlt : 1 < new.length := (List.getElem?_eq_some_iff.1 hins').1
    omega

end Editor

end Cleartext

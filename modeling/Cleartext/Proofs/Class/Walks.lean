import Cleartext.Proofs.Class.References
import Cleartext.Proofs.Code.Relocation

/-!
# What a walk of an attribute body changes

A walk goes through the sites of a body in order and lets a change write at each of them.  The
sites lie inside the body and share no byte, also when the body is malformed and the walk ends
early, and also inside the attributes of a record.  So a change that writes at sites of some
kinds only (`Layout.WritesOnly`) leaves what stands at all others as it was, however far the walk
has come (`Layout.Underway`).

References and places of the code are of different kinds: renumbering the pool moves no place,
and relocating the code renumbers no reference.  `Layout.walk_touches` is the main statement.
-/

namespace Cleartext

namespace Layout

variable {σ : Type} {pool : Pool} {name : String} {info info' : Bytes} {kinds : SiteKind → Prop}
  {change : Site → Bytes → Change σ Bytes} {s s' : σ}

/-- What stands at a site has stayed. -/
def Site.Kept (site : Site) (info info' : Bytes) : Prop :=
  ∀ k, site.Takes k → info'[k]? = info[k]?

/-- A body of the same length that differs only at sites of some kinds. -/
structure ChangedOnly (kinds : SiteKind → Prop) (pool : Pool) (name : String)
    (info info' : Bytes) : Prop where
  length : info'.length = info.length
  sites : ∀ site ∈ (visit pool name info).sites, ¬ kinds site.kind → site.Kept info info'
  others : ∀ k, (∀ site ∈ (visit pool name info).sites, ¬ site.Takes k) → info'[k]? = info[k]?

/-- A change that writes at sites of some kinds only, and no more there than the site takes. -/
def WritesOnly (kinds : SiteKind → Prop) (change : Site → Bytes → Change σ Bytes) : Prop :=
  ∀ site body s new s', (change site body).run s = .ok (new, s') →
    new = [] ∨ kinds site.kind ∧ new.length ≤ site.kind.width

/-- What has become of a body after a walk has come to some of its sites; it may go on from
there, or end with the failure of the visit or of the change. -/
def Underway (pool : Pool) (name : String) (change : Site → Bytes → Change σ Bytes)
    (info info' : Bytes) : Prop :=
  ∃ n s s', (rewriteSites name change ((visit pool name info).sites.take n) info).run s =
    .ok (info', s')

/-! ## Sites share no byte -/

theorem Site.apart_of_le {site other : Site}
    (h : site.position + site.kind.width ≤ other.position) (k : Nat) :
    ¬ (site.Takes k ∧ other.Takes k) := by
  rintro ⟨⟨-, hbelow⟩, habove, -⟩
  omega

theorem apart_visit (pool : Pool) (name : String) (info : Bytes) :
    (visit pool name info).sites.Pairwise fun site other =>
      ∀ k, ¬ (site.Takes k ∧ other.Takes k) :=
  (ordered_visit pool name info).imp Site.apart_of_le

/-! ## Steps and walks -/

/-- A walk takes one step and goes on behind it. -/
theorem run_rewriteSites_cons {site : Site} {sites : List Site} {body : Bytes}
    {answer : Bytes × σ} :
    (rewriteSites name change (site :: sites) body).run s = .ok answer ↔
      ∃ new s', (change site body).run s = .ok (new, s') ∧
        (rewriteSites name change sites (body.overwrite site.position new)).run s' =
          .ok answer := by
  rw [rewriteSites, StateT.run_bind, Except.bind_ok, Prod.exists]
  simp only [Visits.run_explain]

/-- One step of a walk changes the site at which it is. -/
theorem WritesOnly.step (hchange : WritesOnly kinds change) {site : Site} {body new : Bytes}
    (h : (change site body).run s = .ok (new, s')) {k : Nat}
    (hk : kinds site.kind → ¬ site.Takes k) :
    (body.overwrite site.position new)[k]? = body[k]? := by
  rcases hchange site body s new s' h with rfl | ⟨hkind, hwidth⟩
  · rw [Bytes.overwrite_nil]
  · refine Bytes.getElem?_overwrite_of_lt ?_
    by_contra hinside
    exact hk hkind ⟨by omega, by omega⟩

/-- The steps of a walk change the sites to which it has come. -/
theorem WritesOnly.run (hchange : WritesOnly kinds change) {sites : List Site} {body body' : Bytes}
    (h : (rewriteSites name change sites body).run s = .ok (body', s')) :
    body'.length = body.length ∧
      ∀ k, (∀ site ∈ sites, kinds site.kind → ¬ site.Takes k) → body'[k]? = body[k]? := by
  induction sites generalizing body s with
  | nil =>
    obtain ⟨rfl, -⟩ := Prod.mk.inj (Except.ok.inj h)
    exact ⟨rfl, fun _ _ => rfl⟩
  | cons site sites ih =>
    obtain ⟨new, s₁, hstep, hrest⟩ := run_rewriteSites_cons.1 h
    obtain ⟨hlength, hothers⟩ := ih hrest
    refine ⟨by rw [hlength, Bytes.overwrite_length], fun k hk => ?_⟩
    rw [List.forall_mem_cons] at hk
    rw [hothers k hk.2, hchange.step hstep hk.1]

/-- However far a walk has come, it has changed only sites of the kinds at which it writes. -/
theorem WritesOnly.underway (hchange : WritesOnly kinds change)
    (h : Underway pool name change info info') : ChangedOnly kinds pool name info info' := by
  obtain ⟨n, s, s', hrun⟩ := h
  obtain ⟨hlength, hothers⟩ := hchange.run hrun
  refine ⟨hlength, fun site hsite hkind k hk => hothers k fun other hother hkind' hk' => ?_,
    fun k hk => hothers k fun site hsite _ => hk site (List.mem_of_mem_take hsite)⟩
  have hne : site ≠ other := fun heq => hkind (heq ▸ hkind')
  exact apart_of_spread (ordered_visit pool name info) hsite (List.mem_of_mem_take hother) hne
    hk hk'

/-- A walk to the end has come to all sites. -/
theorem underway_of_rewrite (h : (rewrite pool name change info).run s = .ok (info', s')) :
    Underway pool name change info info' := by
  rw [rewrite, StateT.run_bind] at h
  obtain ⟨⟨result, s₁⟩, hresult, hend⟩ := Except.bind_ok.1 h
  obtain rfl : result = info' := by
    cases hfailure : (visit pool name info).failure with
    | some e => rw [hfailure] at hend; cases hend
    | none =>
      rw [hfailure] at hend
      exact (Prod.mk.inj (Except.ok.inj hend)).1
  exact ⟨_, s, s₁, by rw [List.take_length]; exact hresult⟩

/-! ## Renumbering and relocating -/

/-- The change that renumbers a reference. -/
def renumber (f : UInt16 → Change σ UInt16) (site : Site) (info : Bytes) : Change σ Bytes :=
  match site.kind with
  | .reference => Bytes.ofU16 <$> f (info.u16At site.position)
  | _ => return []

theorem changeInfo_eq (f : UInt16 → Change σ UInt16) :
    changeInfo pool f name info = rewrite pool name (renumber f) info := rfl

/-- Renumbering writes at references only. -/
theorem writesOnly_renumber (f : UInt16 → Change σ UInt16) :
    WritesOnly (· = .reference) (renumber f) := by
  intro site body s new s' h
  unfold renumber at h
  split at h
  · rename_i hkind
    rw [StateT.run_map] at h
    obtain ⟨⟨x, s₁⟩, -, heq⟩ := Except.map_ok.1 h
    obtain ⟨rfl, -⟩ := Prod.mk.inj heq
    exact .inr ⟨hkind, (Bytes.ofU16_length x).trans_le site.kind.two_le_width⟩
  · exact .inl (Prod.mk.inj (Except.ok.inj h)).1.symm

/-- Relocating writes at no reference. -/
theorem writesOnly_relocate (r : Relocation) : WritesOnly (· ≠ .reference) r.change := by
  intro site body s new s' h
  rw [Relocation.run_change] at h
  obtain ⟨new', hnew, heq⟩ := Except.map_ok.1 h
  obtain ⟨rfl, -⟩ := Prod.mk.inj heq
  unfold Relocation.site at hnew
  cases hkind : site.kind with
  | reference =>
    rw [hkind] at hnew
    exact .inl (Except.pure_ok.1 hnew).symm
  | offset =>
    rw [hkind] at hnew
    obtain ⟨t, -, hnew⟩ := Except.bind_ok.1 hnew
    obtain rfl := Except.pure_ok.1 hnew
    exact .inr ⟨by simp, le_rfl⟩
  | span =>
    rw [hkind] at hnew
    obtain ⟨start, -, hnew⟩ := Except.bind_ok.1 hnew
    obtain ⟨stop, -, hnew⟩ := Except.bind_ok.1 hnew
    obtain rfl := Except.pure_ok.1 hnew
    exact .inr ⟨by simp, le_rfl⟩
  | handler =>
    rw [hkind] at hnew
    obtain ⟨j, -, hnew⟩ := Except.bind_ok.1 hnew
    obtain rfl := Except.pure_ok.1 hnew
    exact .inr ⟨by simp, le_rfl⟩

/-! ## Walks -/

/-- The sites of a body lie inside it and share no byte.  So a walk changes nothing but the
sites of the kinds at which it writes, and never the length of the body: renumbering leaves
places of the code and rows of the exception table as they are, and relocating the references. -/
theorem walk_touches (pool : Pool) (name : String) (info : Bytes) :
    (∀ site ∈ (visit pool name info).sites, site.position + site.kind.width ≤ info.length) ∧
    ((visit pool name info).sites.Pairwise fun site other =>
      ∀ k, ¬ (site.Takes k ∧ other.Takes k)) ∧
    (∀ (σ : Type) (kinds : SiteKind → Prop) (change : Site → Bytes → Change σ Bytes)
      (info' : Bytes), WritesOnly kinds change → Underway pool name change info info' →
        ChangedOnly kinds pool name info info') ∧
    (∀ (σ : Type) (f : UInt16 → Change σ UInt16) (s s' : σ) (info' : Bytes),
      (changeInfo pool f name info).run s = .ok (info', s') →
        ChangedOnly (· = .reference) pool name info info') ∧
    ∀ (r : Relocation) (info' : Bytes), (rewrite pool name r.change info).run () = .ok (info', ()) →
      ChangedOnly (· ≠ .reference) pool name info info' := by
  refine ⟨inside_visit pool name info, apart_visit pool name info,
    fun σ kinds change info' hchange h => hchange.underway h, fun σ f s s' info' h => ?_,
    fun r info' h => ?_⟩
  · rw [changeInfo_eq] at h
    exact (writesOnly_renumber f).underway (underway_of_rewrite h)
  · exact (writesOnly_relocate r).underway (underway_of_rewrite h)

/-- A record of one component, which has a mark on a type caught in row 9. -/
private def markedRecord : Bytes :=
  [0, 1, 0, 2, 0, 3, 0, 1, 0, 1, 0, 0, 0, 10, 0, 1, 0x42, 0, 9, 0, 0, 4, 0, 0]

/-- A pool in which a record finds the name of the marks. -/
private def markPool : Pool :=
  Pool.ofSlots [none, some (.utf8 (Bytes.ofText "RuntimeVisibleTypeAnnotations"))]

/-- The references of the record are counted on, and after that its row is counted back. -/
theorem walk_touches_record : ∃ renumbered relocated,
    (changeInfo markPool (fun i => return i + 1 : UInt16 → Change Unit UInt16) "Record"
      markedRecord).run () = .ok (renumbered, ()) ∧
    ChangedOnly (· = .reference) markPool "Record" markedRecord renumbered ∧
    (rewrite markPool "Record" (Relocation.change ⟨.ok, fun row => .ok (row - 1)⟩)
      markedRecord).run () = .ok (relocated, ()) ∧
    ChangedOnly (· ≠ .reference) markPool "Record" markedRecord relocated := by
  obtain ⟨-, -, -, hrenumber, hrelocate⟩ := walk_touches markPool "Record" markedRecord
  have hdone (result : Except Error (Bytes × Unit)) (h : result.toOption.isSome = true) :
      ∃ body, result = .ok (body, ()) := by
    cases result with
    | error e => cases h
    | ok answer => exact ⟨answer.1, rfl⟩
  obtain ⟨renumbered, hrenumbered⟩ := hdone ((changeInfo markPool
    (fun i => return i + 1 : UInt16 → Change Unit UInt16) "Record" markedRecord).run ())
    (by decide +kernel)
  obtain ⟨relocated, hrelocated⟩ := hdone ((rewrite markPool "Record"
    (Relocation.change ⟨.ok, fun row => .ok (row - 1)⟩) markedRecord).run ()) (by decide +kernel)
  exact ⟨renumbered, relocated, hrenumbered, hrenumber Unit _ () () _ hrenumbered, hrelocated,
    hrelocate _ _ hrelocated⟩

end Layout

end Cleartext

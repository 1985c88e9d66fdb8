import Cleartext.Proofs.Class.Twins

/-!
# The sites of an attribute body

`Layout.visit` lists the places of a body at which something else is named.  Every part of a
layout is a twin visit, and so is a layout (`Visit.twins_bodyOf`).  From this one reads off
where the places are, also those listed up to a failure: they stand in order and do not
overlap (`ordered_visit`), and they lie inside the body (`inside_visit`).  When the visit
succeeds, the word at a reference is not zero (`spaced_visit`).  Only an attribute inside an
attribute, or one that is not listed in `fixed`, has an unknown layout (`known_of_fixed`).
-/

namespace Cleartext

namespace Layout

namespace Visit

variable {T : UInt16 → UInt16 → Prop} {Fails : Stop → Prop}

/-! ## Repetition and parts -/

theorem steady_times {v w : Visit Unit} (hv : Twins T (· = ·) Fails v w) (n : Nat) :
    Twins T (· = ·) Fails (times n v) (times n w) := by
  induction n with
  | zero => exact steady_pure _
  | succ n ih => exact steady_bind hv fun _ => ih

theorem steady_counted {v w : Visit Unit} (himp : ∀ e, Stop.Known e → Fails e)
    (hv : Twins T (· = ·) Fails v w) : Twins T (· = ·) Fails (counted v) (counted w) :=
  steady_bind (steady_u16.mono himp) fun n => steady_times hv n.toNat

/-- A visit as often as the next two bytes say, none of which is unknown. -/
theorem steady_countedKnown {v : Visit Unit} (hv : Steady T Stop.Known v) :
    Steady T Stop.Known (counted v) :=
  steady_counted (fun _ => id) hv

theorem steady_ite {c : Prop} [Decidable c] {v v' w w' : Visit Unit}
    (hv : Twins T (· = ·) Fails v v') (hw : Twins T (· = ·) Fails w w') :
    Twins T (· = ·) Fails (if c then v else w) (if c then v' else w') := by
  split
  · exact hv
  · exact hw

theorem steady_typeTarget : Steady T Stop.Known typeTarget := by
  refine steady_bind steady_u8 fun target => ?_
  exact steady_ite steady_skip8 <|
    steady_ite steady_skip16 <|
    steady_ite (steady_bind steady_skip8 fun _ => steady_skip8) <|
    steady_ite (steady_pure _) <|
    steady_ite (steady_countedKnown (steady_bind steady_span fun _ => steady_skip16)) <|
    steady_ite steady_handler <|
    steady_ite steady_offset <|
    steady_ite (steady_bind steady_offset fun _ => steady_skip8) <|
    steady_flaw _

section References

variable (hnonzero : ∀ i x, T i x → x ≠ 0)

include hnonzero

theorem steady_reference : Steady T Stop.Known (do let _ ← reference) :=
  (twins_reference hnonzero).bind (fun _ => (steady_pure (T := T) ()).toMoves)
    fun _ _ _ => steady_pure ()

theorem steady_references (n : Nat) : Steady T Stop.Known (references n) :=
  steady_times (steady_reference hnonzero) n

theorem steady_countedReferences : Steady T Stop.Known countedReferences :=
  steady_bind steady_u16 fun n => steady_references hnonzero n.toNat

theorem steady_verificationType : Steady T Stop.Known verificationType := by
  refine steady_bind steady_u8 fun tag => ?_
  exact steady_ite (steady_reference hnonzero) <|
    steady_ite steady_offset <|
    steady_ite (steady_flaw _) <|
    steady_pure _

theorem steady_frame : Steady T Stop.Known frame := by
  refine steady_bind steady_u8 fun kind => ?_
  have htype := steady_verificationType hnonzero
  have hcounted := steady_countedKnown htype
  have hskipped {v : Visit Unit} (hv : Steady T Stop.Known v) :
      Steady T Stop.Known (do skip16; v) :=
    steady_bind steady_skip16 fun _ => hv
  exact steady_ite (steady_pure _) <|
    steady_ite htype <|
    steady_ite (hskipped htype) <|
    steady_ite steady_skip16 <|
    steady_ite (hskipped (steady_times htype _)) <|
    steady_ite (hskipped (steady_bind hcounted fun _ => hcounted)) <|
    steady_flaw _

theorem steady_module : Steady T Stop.Known module := by
  have hlisted {v : Visit Unit} (hv : Steady T Stop.Known v) :
      Steady T Stop.Known (do references 1; skip16; v) :=
    steady_bind (steady_references hnonzero 1) fun _ => steady_bind steady_skip16 fun _ => hv
  refine steady_bind (steady_references hnonzero 1) fun _ => steady_bind steady_skip16 fun _ =>
    steady_bind (steady_references hnonzero 1) fun _ => ?_
  refine steady_bind (steady_countedKnown (hlisted (steady_references hnonzero 1))) fun _ => ?_
  have hopened := steady_countedKnown (hlisted (steady_countedReferences hnonzero))
  refine steady_bind (steady_times hopened 2) fun _ => ?_
  refine steady_bind (steady_countedReferences hnonzero) fun _ => ?_
  exact steady_countedKnown
    (steady_bind (steady_references hnonzero 1) fun _ => steady_countedReferences hnonzero)

theorem steady_markWith {v : Visit Unit} (hv : Steady T Stop.Known v) :
    Steady T Stop.Known (markWith v) :=
  steady_bind (steady_references hnonzero 1) fun _ =>
    steady_countedKnown (steady_bind (steady_references hnonzero 1) fun _ => hv)

theorem steady_element (depth : Nat) : Steady T Stop.Known (element depth) := by
  induction depth with
  | zero => exact steady_ended 1
  | succ depth ih =>
    refine steady_bind steady_u8 fun tag => ?_
    exact steady_ite (steady_references hnonzero 1) <|
      steady_ite (steady_references hnonzero 2) <|
      steady_ite (steady_markWith hnonzero ih) <|
      steady_ite (steady_countedKnown ih) <|
      steady_flaw _

theorem steady_mark (depth : Nat) : Steady T Stop.Known (mark depth) :=
  steady_markWith hnonzero (steady_element hnonzero depth)

theorem steady_typeMark (depth : Nat) : Steady T Stop.Known (typeMark depth) := by
  have hpath : Steady T Stop.Known typePath :=
    steady_bind steady_u8 fun n => steady_modify_skip fun _ _ _ => rfl
  exact steady_bind steady_typeTarget fun _ => steady_bind hpath fun _ => steady_mark hnonzero depth

end References

/-! ## Attributes inside attributes -/

/-- A failure inside an attribute is told as it is. -/
private def asDirect : Stop → Stop
  | .plain e | .direct e => .direct e

/-- A visit whose failures are told as they are. -/
private theorem exec_direct (v : Visit Unit) (s : Progress) :
    exec (tryCatch v fun | .plain e | .direct e => throw (.direct e)) s =
      match exec v s with
      | (.error e, s') => (.error (asDirect e), s')
      | (.ok (), s') => (.ok (), s') := by
  have htry : exec (tryCatch v fun | .plain e | .direct e => throw (.direct e)) s =
      exec (tryCatch (ExceptT.mk fun _ => exec v s : Visit Unit) fun
        | .plain e | .direct e => throw (.direct e)) s := rfl
  rw [htry]
  obtain ⟨result, s'⟩ := exec v s
  cases result with
  | ok a => rfl
  | error e =>
    cases e with
    | plain e | direct e => rfl

/-- Going on with an attribute inside an attribute once its name and its length
are read. -/
private def inside (pool : Pool) (visit : String → Visit Unit) (i : UInt16) (length : Nat) :
    Visit Unit := do
  let s ← get
  match s.cursor.bytes length with
  | .error e => throw (.plain e)
  | .ok (info, after) =>
    match pool.text i with
    | .error e => throw (.direct (.malformedBy .nestedAttributeName e))
    | .ok name =>
      set { s with cursor := ⟨info, s.cursor.offset, after.offset⟩, nested := true }
      tryCatch (visit name) fun
        | .plain e | .direct e => throw (.direct e)
      let inner ← get
      if inner.cursor.left ≠ 0 then
        throw (.direct (.malformed (.trailingInNested name inner.cursor.left)))
      set { inner with cursor := after, nested := s.nested }

private theorem nestedWith_eq (pool : Pool) (visit : String → Visit Unit) :
    nestedWith pool visit = counted (do
      let i ← reference
      let length ← u32
      inside pool visit i length.toNat) := rfl

/-- The state in which an attribute inside an attribute is visited, of which the
bytes are `info`. -/
private def entered (s : Progress) (info : Bytes) : Progress :=
  { s with cursor := ⟨info, s.cursor.offset, s.cursor.offset + info.length⟩, nested := true }

private theorem exec_inside (pool : Pool) (visit : String → Visit Unit) (i : UInt16)
    (length : Nat) (s : Progress) :
    exec (inside pool visit i length) s =
      match s.cursor.bytes length with
      | .error e => (.error (.plain e), s)
      | .ok (info, after) =>
        match pool.text i with
        | .error e => (.error (.direct (.malformedBy .nestedAttributeName e)), s)
        | .ok name =>
          match exec (visit name)
            { s with cursor := ⟨info, s.cursor.offset, after.offset⟩, nested := true } with
          | (.error e, s') => (.error (asDirect e), s')
          | (.ok (), s') =>
            if s'.cursor.left ≠ 0 then
              (.error (.direct (.malformed (.trailingInNested name s'.cursor.left))), s')
            else (.ok (), { s' with cursor := after, nested := s.nested }) := by
  unfold inside
  rw [exec_get]
  cases s.cursor.bytes length with
  | error e => rfl
  | ok found =>
    obtain ⟨info, after⟩ := found
    dsimp only
    cases pool.text i with
    | error e => rfl
    | ok name =>
      have hset (v : Visit Unit) (s' : Progress) : exec (do set s'; v) s = exec v s' := rfl
      dsimp only
      rw [hset, exec_bind, exec_direct]
      generalize exec (visit name) _ = run
      obtain ⟨result, s'⟩ := run
      cases result with
      | error e => rfl
      | ok _ =>
        dsimp only
        rw [exec_get]
        split
        · rfl
        · rfl

/-- The bytes of an attribute inside an attribute are those at the cursor. -/
private theorem bytes_ok_skip {c after : Cursor} {info : Bytes} {length : Nat} :
    c.bytes length = .ok (info, after) ↔
      info.length = length ∧ c.Reads info (c.skip length) ∧ after = c.skip length := by
  rw [Cursor.bytes_ok]
  constructor
  · rintro ⟨rfl, hreads⟩
    have hafter : after = c.skip info.length :=
      congrArg Progress.cursor (@Progress.advance_of_reads ⟨c, [], false⟩ _ _ hreads)
    exact ⟨rfl, hafter ▸ hreads, hafter⟩
  · rintro ⟨hlength, hreads, rfl⟩
    exact ⟨hlength, hreads⟩

/-- An attribute inside an attribute is visited up to its end. -/
private theorem exec_inside_ok {pool : Pool} {visit : String → Visit Unit} {i : UInt16}
    {length : Nat} {s s'' : Progress} :
    exec (inside pool visit i length) s = (.ok (), s'') ↔
      ∃ info name s', info.length = length ∧
        s.cursor.Reads info (s.cursor.skip length) ∧ pool.text i = .ok name ∧
        exec (visit name) (entered s info) = (.ok (), s') ∧ s'.cursor.left = 0 ∧
        s'' = { s' with cursor := s.cursor.skip length, nested := s.nested } := by
  rw [exec_inside]
  constructor
  · intro h
    split at h
    · simp at h
    · rename_i info after hbytes
      obtain ⟨rfl, hreads, rfl⟩ := bytes_ok_skip.1 hbytes
      split at h
      · simp at h
      · rename_i name hname
        split at h
        · simp at h
        · rename_i s' hrun
          split at h
          · simp at h
          · rename_i hleft
            exact ⟨info, name, s', rfl, hreads, hname, hrun, not_not.1 hleft,
              (Prod.mk.inj h).2.symm⟩
  · rintro ⟨info, name, s', rfl, hreads, hname, hrun, hleft, rfl⟩
    have hrun' : exec (visit name) { s with
        cursor := ⟨info, s.cursor.offset, (s.cursor.skip info.length).offset⟩, nested := true } =
          (.ok (), s') := hrun
    rw [bytes_ok_skip.2 ⟨rfl, hreads, rfl⟩, hname]
    dsimp only
    rw [hrun']
    dsimp only
    rw [if_neg (not_not.2 hleft)]

/-- A visit that fails at an attribute inside an attribute has listed at most what
the visit of that attribute has. -/
private theorem exec_inside_error {pool : Pool} {visit : String → Visit Unit} {i : UInt16}
    {length : Nat} {s s'' : Progress} {e : Stop}
    (h : exec (inside pool visit i length) s = (.error e, s'')) :
    s'' = s ∨ ∃ info name result, s.cursor.Reads info (s.cursor.skip length) ∧
      exec (visit name) (entered s info) = (result, s'') := by
  rw [exec_inside] at h
  split at h
  · exact .inl (Prod.mk.inj h).2.symm
  · rename_i info after hbytes
    obtain ⟨rfl, hreads, rfl⟩ := bytes_ok_skip.1 hbytes
    split at h
    · exact .inl (Prod.mk.inj h).2.symm
    · rename_i name hname
      split at h
      · rename_i e' s' hrun
        obtain ⟨-, rfl⟩ := Prod.mk.inj h
        exact .inr ⟨info, name, _, hreads, hrun⟩
      · rename_i s' hrun
        split at h
        · obtain ⟨-, rfl⟩ := Prod.mk.inj h
          exact .inr ⟨info, name, _, hreads, hrun⟩
        · simp at h

/-- Sites inside the bytes of an attribute are inside those around it. -/
private theorem lists_entered {s s' : Progress} {info : Bytes} {length : Nat} {new : List Site}
    (hreads : s.cursor.Reads info (s.cursor.skip length)) (h : (entered s info).Lists new s') :
    s.Lists new s' := by
  have hrest : s.cursor.rest.length = info.length + (s.cursor.skip length).rest.length :=
    hreads.length_rest
  refine ⟨h.sites, h.spaced, h.ahead, fun site hsite => ?_⟩
  have hle : site.position + site.kind.width ≤ s.cursor.offset + info.length :=
    h.inside site hsite
  omega

/-- The words of an attribute are those of the bytes around it. -/
private theorem u16At_entered {s : Progress} {info : Bytes} {c : Cursor} {k : Nat}
    (hreads : s.cursor.Reads info c) (hk : k + 2 ≤ info.length) :
    s.cursor.rest.u16At k = info.u16At k := by
  rw [hreads.rest]
  exact Bytes.u16At_append hk

private theorem moves_inside (pool : Pool) {visit : String → Visit Unit}
    (hvisit : ∀ name, Moves (fun _ => True) (visit name)) (i : UInt16) (length : Nat) :
    Moves (fun _ => True) (inside pool visit i length) := by
  refine ⟨fun s e s'' h => ⟨True.intro, ?_⟩, fun s _ s'' h => ?_⟩
  · rcases exec_inside_error h with rfl | ⟨info, name, result, hreads, hrun⟩
    · exact ⟨[], .refl _⟩
    · cases result with
      | error e' =>
        obtain ⟨-, new, hlists⟩ := (hvisit name).fails _ _ _ hrun
        exact ⟨new, lists_entered hreads hlists⟩
      | ok a =>
        obtain ⟨n, new, rfl, hspread⟩ := (hvisit name).succeeds _ _ _ hrun
        exact ⟨new, lists_entered hreads hspread.lists⟩
  · obtain ⟨info, name, s', hlength, hreads, hname, hrun, hleft, rfl⟩ := exec_inside_ok.1 h
    obtain ⟨n, new, rfl, hspread⟩ := (hvisit name).succeeds _ _ _ hrun
    -- The visit ends where the attribute does.
    have hn : n = length := by
      have hzero :
          ((s.cursor.offset + info.length : Nat) : Int) - (s.cursor.offset + n : Nat) = 0 := hleft
      omega
    subst hn
    refine ⟨n, new, rfl, hspread.spaced, hspread.ahead, hspread.behind,
      (lists_entered hreads hspread.lists).inside, fun site hsite hkind k hk => ?_⟩
    have hinside : site.position + site.kind.width ≤ s.cursor.offset + info.length :=
      hspread.inside site hsite
    have hwidth := site.kind.two_le_width
    rw [u16At_entered hreads (by omega)]
    exact hspread.nonzero site hsite hkind k hk

section Nested

variable {p q : Pool} {visit visit' : String → Visit Unit}

private theorem twins_inside
    (hvisit : ∀ name, Twins T (· = ·) (fun _ => True) (visit name) (visit' name)) {i x : UInt16}
    (hnames : ∀ name, p.text i = .ok name → q.text x = .ok name) (length : Nat) :
    Twins T (· = ·) (fun _ => True) (inside p visit i length) (inside q visit' x length) := by
  refine ⟨moves_inside p (fun name => (hvisit name).toMoves) i length,
    fun s a n new rest h hagrees => ⟨a, rfl, ?_⟩⟩
  obtain ⟨info, name, s', hlength, hreads, hname, hrun, hleft, hs'⟩ := exec_inside_ok.1 h
  obtain ⟨m, more, rfl, hspread⟩ := (hvisit name).succeeds _ _ _ hrun
  have hm : m = length := by
    have hzero : ((s.cursor.offset + info.length : Nat) : Int) - (s.cursor.offset + m : Nat) = 0 :=
      hleft
    omega
  subst hm
  obtain ⟨rfl, rfl⟩ : n = m ∧ new = more := Progress.advance_inj hs'
  have hrest : s.cursor.rest.length = info.length + (s.cursor.skip n).rest.length :=
    hreads.length_rest
  have htake : (rest.take n).length = n := by
    rw [List.length_take, hagrees.length]
    omega
  have hagrees' : (entered s info).Agrees T n new (rest.take n) := by
    refine ⟨htake.trans hlength.symm, fun k hk huntaken => ?_, fun site hsite hkind k hk => ?_⟩
    · rw [List.getElem?_take, if_pos hk, hagrees.bytes k hk huntaken, hreads.rest,
        List.getElem?_append_left (by omega)]
      rfl
    · have hinside : site.position + site.kind.width ≤ s.cursor.offset + info.length :=
        hspread.inside site hsite
      have hwidth := site.kind.two_le_width
      replace hk : site.position = s.cursor.offset + k := hk
      have hT := hagrees.references site hsite hkind k hk
      have hsame : Bytes.u16At s.cursor.rest k = Bytes.u16At info k :=
        u16At_entered hreads (by omega)
      have hsame' : Bytes.u16At (rest.take n) k = Bytes.u16At rest k := by
        conv_rhs => rw [← List.take_append_drop n rest]
        exact (Bytes.u16At_append (by omega)).symm
      rw [hsame']
      rwa [hsame] at hT
  have hentered : (entered s info).reading (rest.take n) =
      entered (s.reading rest) (rest.take n) := by
    unfold entered Progress.reading
    rw [htake, hlength]
  obtain ⟨_, -, hrun'⟩ := (hvisit name).same _ _ n new _ hrun hagrees'
  refine exec_inside_ok.2 ⟨rest.take n, name, _, htake, ⟨?_, ?_, rfl⟩, hnames name hname,
    hentered ▸ hrun', ?_, rfl⟩
  · exact (List.take_append_drop n rest).symm
  · rw [htake]
    rfl
  · rw [← hentered, ← hleft]
    rfl

theorem twins_nestedWith (hT : SameNames p q T)
    (hvisit : ∀ name, Twins T (· = ·) (fun _ => True) (visit name) (visit' name)) :
    Twins T (· = ·) (fun _ => True) (nestedWith p visit) (nestedWith q visit') := by
  have hany {α β : Type} {A : α → β → Prop} {v : Visit α} {w : Visit β}
      (hv : Twins T A Stop.Known v w) : Twins T A (fun _ => True) v w :=
    hv.mono fun _ _ => True.intro
  have hmoves (name : String) := (hvisit name).toMoves
  rw [nestedWith_eq, nestedWith_eq]
  refine steady_counted (fun _ _ => True.intro) ?_
  refine (hany (twins_reference hT.nonzero)).bind (fun i => ?_) fun i x hix => ?_
  · exact (hany (steady_u32 (T := T))).toMoves.bind fun length => moves_inside p hmoves i _
  · refine steady_bind (hany steady_u32) fun length => twins_inside hvisit (fun name hname => ?_) _
    rcases hix with ⟨rfl, rfl⟩ | ⟨-, hix⟩
    · exact hT.zero name hname
    · exact hT.text i x name hix hname

end Nested

end Visit

/-- The attributes whose layout does not depend on other attributes. -/
def fixed : List String :=
  ["ConstantValue", "Signature", "SourceFile", "NestHost", "ModuleMainClass", "Synthetic",
    "Deprecated", "SourceDebugExtension", "Exceptions", "NestMembers", "PermittedSubclasses",
    "ModulePackages", "InnerClasses", "EnclosingMethod", "LineNumberTable", "LocalVariableTable",
    "LocalVariableTypeTable", "StackMapTable", "BootstrapMethods", "MethodParameters", "Module",
    "RuntimeVisibleAnnotations", "RuntimeInvisibleAnnotations",
    "RuntimeVisibleParameterAnnotations", "RuntimeInvisibleParameterAnnotations",
    "RuntimeVisibleTypeAnnotations", "RuntimeInvisibleTypeAnnotations", "AnnotationDefault"]

/-- The body of an attribute of any name. -/
theorem Visit.twins_bodyOf {p q : Pool} {T : UInt16 → UInt16 → Prop} (hT : SameNames p q T)
    (depth : Nat) : ∀ name, Twins T (· = ·) (fun e => name ∈ fixed → e.Known)
      (bodyOf p depth name) (bodyOf q depth name) := by
  induction depth with
  | zero => exact fun _ => (steady_ended 1).mono fun _ h _ => h
  | succ depth ih =>
    intro name
    have hknown {name : String} {v : Visit Unit} (hv : Steady T Stop.Known v) :
        Steady T (fun e => name ∈ fixed → e.Known) v :=
      hv.mono fun _ h _ => h
    have hpair {v : Visit Unit} (hv : Steady T Stop.Known v) (n : Nat) :
        Steady T Stop.Known (do references n; v) :=
      steady_bind (steady_references hT.nonzero n) fun _ => hv
    unfold bodyOf
    split
    · exact hknown (steady_references hT.nonzero 1)
    · exact hknown (steady_references hT.nonzero 1)
    · exact hknown (steady_references hT.nonzero 1)
    · exact hknown (steady_references hT.nonzero 1)
    · exact hknown (steady_references hT.nonzero 1)
    · exact hknown (steady_modify_skip fun _ _ h => h)
    · exact hknown (steady_modify_skip fun _ _ h => h)
    · exact hknown (steady_modify_skip fun _ _ h => h)
    · exact hknown (steady_countedReferences hT.nonzero)
    · exact hknown (steady_countedReferences hT.nonzero)
    · exact hknown (steady_countedReferences hT.nonzero)
    · exact hknown (steady_countedReferences hT.nonzero)
    · exact hknown (steady_countedKnown (hpair steady_skip16 3))
    · exact hknown (steady_references hT.nonzero 2)
    · exact hknown (steady_countedKnown (steady_bind steady_offset fun _ => steady_skip16))
    · exact hknown (steady_countedKnown (steady_bind steady_span fun _ => hpair steady_skip16 2))
    · exact hknown (steady_countedKnown (steady_bind steady_span fun _ => hpair steady_skip16 2))
    · exact hknown (steady_countedKnown (steady_frame hT.nonzero))
    · exact hknown (steady_countedKnown (hpair (steady_countedReferences hT.nonzero) 1))
    · exact hknown (steady_bind steady_u8 fun n => steady_times (hpair steady_skip16 1) n.toNat)
    · -- Only a record holds attributes, and it is not fixed.
      have hnested := twins_nestedWith hT fun name => (ih name).mono fun _ _ => True.intro
      have hrecord := steady_bind ((steady_references hT.nonzero 2).mono fun _ _ => True.intro)
        fun _ => hnested
      exact (steady_counted (fun _ _ => True.intro) hrecord).mono fun e _ hfixed =>
        absurd hfixed (by decide)
    · exact hknown (steady_module hT.nonzero)
    · exact hknown (steady_countedKnown (steady_mark hT.nonzero depth))
    · exact hknown (steady_countedKnown (steady_mark hT.nonzero depth))
    · exact hknown (steady_bind steady_u8 fun n =>
        steady_times (steady_countedKnown (steady_mark hT.nonzero depth)) n.toNat)
    · exact hknown (steady_bind steady_u8 fun n =>
        steady_times (steady_countedKnown (steady_mark hT.nonzero depth)) n.toNat)
    · exact hknown (steady_countedKnown (steady_typeMark hT.nonzero depth))
    · exact hknown (steady_countedKnown (steady_typeMark hT.nonzero depth))
    · exact hknown (steady_element hT.nonzero depth)
    · refine steady_throw fun hfixed => ?_
      simp_all [fixed]

/-! ## Whole bodies -/

theorem visit_eq (pool : Pool) (name : String) (info : Bytes) : visit pool name info =
    let s := Visit.exec (Visit.bodyOf pool (info.length + 2) name) ⟨Cursor.start info, [], false⟩
    ⟨s.2.sites.reverse, match s.1 with
      | .error (.direct e) => some e
      | .error (.plain e) => some (.within (.attribute name) e)
      | .ok () =>
        if s.2.cursor.left = 0 then none
        else some (.malformed (.trailingInAttribute name s.2.cursor.left))⟩ := rfl

/-- The references of a pool correspond to themselves. -/
theorem sameNames_self (pool : Pool) : SameNames pool pool fun i x => x = i ∧ x ≠ 0 :=
  ⟨fun _ _ h => h.2, fun _ _ _ h hname => h.1 ▸ hname, fun _ hname => hname⟩

/-- The start of the visit of a body. -/
def opened (info : Bytes) : Progress := ⟨Cursor.start info, [], false⟩

theorem sites_visit (pool : Pool) (name : String) (info : Bytes) :
    (visit pool name info).sites =
      (Visit.exec (Visit.bodyOf pool (info.length + 2) name) (opened info)).2.sites.reverse := by
  rw [visit_eq, opened]

/-- A visit succeeds if it comes to the end of the body. -/
theorem failure_eq_none {pool : Pool} {name : String} {info : Bytes} :
    (visit pool name info).failure = none ↔
      ∃ s, Visit.exec (Visit.bodyOf pool (info.length + 2) name) (opened info) = (.ok (), s) ∧
        s.cursor.left = 0 := by
  rw [visit_eq, ← opened]
  obtain ⟨result, s⟩ := Visit.exec (Visit.bodyOf pool (info.length + 2) name) (opened info)
  cases result with
  | error stop =>
    refine iff_of_false ?_ ?_
    · cases stop <;> exact nofun
    · rintro ⟨_, heq, -⟩
      cases heq
  | ok a =>
    by_cases hleft : s.cursor.left = 0
    · exact iff_of_true (if_pos hleft) ⟨s, rfl, hleft⟩
    · refine iff_of_false (fun h => ?_) ?_
      · simp only [if_neg hleft] at h
        cases h
      · rintro ⟨_, heq, hzero⟩
        exact hleft ((Prod.mk.inj heq).2 ▸ hzero)

section

variable {p q pool : Pool} {name : String} {info info' : Bytes} {T : UInt16 → UInt16 → Prop}

/-- What a visit that succeeds has done. -/
theorem visit_ok (hT : SameNames p q T) (h : (visit p name info).failure = none) :
    ∃ sites, visit p name info = ⟨sites.reverse, none⟩ ∧
      (opened info).Spread info.length sites ∧
      ∀ info', (opened info).Agrees T info.length sites info' →
        visit q name info' = visit p name info := by
  obtain ⟨s, hexec, hleft⟩ := failure_eq_none.1 h
  have htwins := Visit.twins_bodyOf hT (info.length + 2) name
  obtain ⟨n, sites, rfl, hspread⟩ := htwins.succeeds _ _ _ hexec
  obtain rfl : n = info.length := by
    have hzero : (info.length : Int) - (0 + n : Nat) = 0 := hleft
    omega
  have hvisit : visit p name info = ⟨sites.reverse, none⟩ := by
    rw [visit_eq, ← opened, hexec]
    simp [Progress.advance, opened, Cursor.left, Cursor.skip, Cursor.start]
  refine ⟨sites, hvisit, hspread, fun info' hagrees => ?_⟩
  have hlength : info'.length = info.length := hagrees.length
  have hopened : opened info' = (opened info).reading info' := by
    simp [opened, Progress.reading, Cursor.start, hlength]
  obtain ⟨_, -, hsame⟩ := htwins.same _ _ _ _ info' hexec hagrees
  rw [hvisit, visit_eq, ← opened, hopened, hlength, hsame]
  simp [Progress.advance, Progress.reading, opened, Cursor.left, Cursor.skip, Cursor.start]

/-- What a visit has listed, also when it fails. -/
theorem lists_visit (pool : Pool) (name : String) (info : Bytes) :
    ∃ new s, (visit pool name info).sites = new.reverse ∧ (opened info).Lists new s := by
  have hmoves := (Visit.twins_bodyOf (sameNames_self pool) (info.length + 2) name).toMoves
  rw [sites_visit]
  cases hexec : Visit.exec (Visit.bodyOf pool (info.length + 2) name) (opened info) with
  | mk result s =>
    obtain ⟨new, hlists⟩ : ∃ new, (opened info).Lists new s := by
      cases result with
      | error e => exact (hmoves.fails _ _ _ hexec).2
      | ok a =>
        obtain ⟨n, new, rfl, hspread⟩ := hmoves.succeeds _ _ _ hexec
        exact ⟨new, hspread.lists⟩
    have hsites : s.sites = new ++ [] := hlists.sites
    rw [List.append_nil] at hsites
    exact ⟨new, s, congrArg List.reverse hsites, hlists⟩

/-- The sites of a visit lie inside the body, also when it fails. -/
theorem inside_visit (pool : Pool) (name : String) (info : Bytes) :
    ∀ site ∈ (visit pool name info).sites, site.position + site.kind.width ≤ info.length := by
  obtain ⟨new, s, hsites, hlists⟩ := lists_visit pool name info
  intro site hsite
  rw [hsites] at hsite
  have hle := hlists.inside site (List.mem_reverse.1 hsite)
  rwa [show (opened info).cursor.offset = 0 from rfl, Nat.zero_add] at hle

/-- The sites of a visit stand one after another, also when it fails. -/
theorem ordered_visit (pool : Pool) (name : String) (info : Bytes) :
    (visit pool name info).sites.Pairwise fun earlier later =>
      earlier.position + earlier.kind.width ≤ later.position := by
  obtain ⟨new, s, hsites, hlists⟩ := lists_visit pool name info
  rw [hsites]
  exact List.pairwise_reverse.2 hlists.spaced

/-- Sites that stand in a body one after another, of which the references are
not zero. -/
structure Spaced (info : Bytes) (sites : List Site) : Prop where
  ordered : sites.Pairwise fun earlier later => earlier.position + 2 ≤ later.position
  inside : ∀ site ∈ sites, site.position + 2 ≤ info.length
  nonzero : ∀ site ∈ sites, site.kind = .reference → info.u16At site.position ≠ 0

/-- The sites of a visit that succeeds are spaced. -/
theorem spaced_visit (h : (visit pool name info).failure = none) :
    Spaced info (visit pool name info).sites := by
  obtain ⟨sites, hvisit, hspread, -⟩ := visit_ok (sameNames_self pool) h
  refine ⟨(ordered_visit pool name info).imp fun {earlier later} hle => ?_, fun site hsite => ?_,
    fun site hsite hkind => ?_⟩
  · exact (Nat.add_le_add_left earlier.kind.two_le_width _).trans hle
  · exact (Nat.add_le_add_left site.kind.two_le_width _).trans
      (inside_visit pool name info site hsite)
  · rw [hvisit] at hsite
    exact hspread.nonzero site (List.mem_reverse.1 hsite) hkind _ (Nat.zero_add _).symm

end

/-- A body whose layout is fixed is not taken for one of unknown layout. -/
theorem known_of_fixed {pool : Pool} {name other : String} {info : Bytes} {e : Error}
    (hfixed : name ∈ fixed) (h : (visit pool name info).failure = some e) :
    e.root ≠ .unknownAttribute other := by
  rw [visit_eq] at h
  cases hexec : Visit.exec (Visit.bodyOf pool (info.length + 2) name)
      ⟨Cursor.start info, [], false⟩ with
  | mk result s =>
    rw [hexec] at h
    cases result with
    | error stop =>
      have hmoves := (Visit.twins_bodyOf (sameNames_self pool) (info.length + 2) name).toMoves
      have hknown := (hmoves.fails _ _ _ hexec).1 hfixed
      cases stop with
      | plain e' =>
        obtain rfl := Option.some.inj h
        exact hknown other
      | direct e' =>
        obtain rfl := Option.some.inj h
        exact hknown other
    | ok a =>
      simp only at h
      split at h
      · cases h
      · obtain rfl := Option.some.inj h
        intro hroot
        cases hroot

end Layout

end Cleartext

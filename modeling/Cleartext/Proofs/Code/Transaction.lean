import Cleartext.Proofs.Code.Placement

/-!
# A commit in place

`Editor.commit` answers with a new editor.  The commit of this file works in
place: it writes each encoded instruction, each row of the exception table and
each word of an attribute to a working copy as soon as it is known, and goes on
until something does not fit.  Only when nothing can fail any more does it write
the working copies to the body.

`Amounts` compares a program that works in place with a computation that
answers, and says that the program leaves the editor alone.  It is closed under
sequencing (`Amounts.bind`), so every part of a commit has it, and
`commitInPlace_atomic` reads off what a commit does to the editor.
-/

namespace Cleartext

/-- What a commit in place writes to: the editor with its body, the encoded
instructions, the new rows of the exception table with the new index of every
old row, the words of the attribute that is being moved, and the attributes that
have been moved. -/
structure Desk where
  editor : Editor
  code : Bytes := []
  handlers : List Handler := []
  indices : List (Option Nat) := []
  info : Bytes := []
  attributes : List Attribute := []

/-- A program that works in place.  What it has written stays when it fails. -/
abbrev InPlace := EStateM Error Desk

namespace Editor

/-- Encodes an instruction behind those that have been encoded. -/
def encodeInPlace (l : NewLayout) (p : Placed) : InPlace Unit := do
  let bytes ← ofExcept (l.encode p)
  modify fun d => { d with code := d.code ++ bytes }

/-- Moves a row of the exception table, or drops it when its range is empty. -/
def moveRowInPlace (l : NewLayout) (h : Handler) : InPlace Unit := do
  let start ← ofExcept (l.offset h.start.toNat)
  let stop ← ofExcept (l.offset h.stop.toNat)
  let target ← ofExcept (l.target h.target.toNat)
  if stop ≤ start then
    modify fun d => { d with indices := d.indices ++ [none] }
  else
    modify fun d => { d with
      indices := d.indices ++ [some d.handlers.length]
      handlers := d.handlers ++ [{ h with
        start := UInt16.ofInt start, stop := UInt16.ofInt stop, target := UInt16.ofInt target }] }

/-- Moves what stands at a site of the attribute on the desk. -/
def moveSiteInPlace (r : Relocation) (name : String) (site : Layout.Site) : InPlace Unit := do
  match r.site site (← get).info with
  | .ok new => modify fun d => { d with info := d.info.overwrite site.position new }
  | .error e => throw (if site.nested then e else .within (.attribute name) e)

/-- Moves what stands in the body of an attribute, word by word in a copy. -/
def moveInfoInPlace (r : Relocation) (pool : Pool) (name : String) (info : Bytes) :
    InPlace Unit := do
  modify fun d => { d with info }
  let survey := Layout.visit pool name info
  survey.sites.forM (moveSiteInPlace r name)
  match survey.failure with
  | none => return
  | some e => throw e

/-- Puts an attribute behind those that have been moved. -/
def putAttribute (a : Attribute) : InPlace Unit :=
  modify fun d => { d with attributes := d.attributes ++ [a] }

/-- Moves an attribute that is laid out in words.  One of unknown layout is
carried over as it was, however far its copy has been moved. -/
def moveWordsInPlace (r : Relocation) (pool : Pool) (i : UInt16) (name : String) (info : Bytes) :
    InPlace Unit := fun d =>
  match moveInfoInPlace r pool name info d with
  | .ok () d' => putAttribute (.raw i name d'.info) d'
  | .error e d' =>
    match e.root with
    | .unknownAttribute _ => putAttribute (.raw i name info) d'
    | _ => .error (.within (.named name) e) d'

/-- Moves an attribute of a body. -/
def moveAttributeInPlace (r : Relocation) (pool : Pool) : Attribute → InPlace Unit
  | .code .. => throw (.malformed .codeInCode)
  | .raw i name info =>
    if name = "StackMapTable" then do
      putAttribute (.raw i name (← ofExcept (StackMap.relocate r.offset info)))
    else moveWordsInPlace r pool i name info

/-- Moves the attributes of a body one after another. -/
def moveAttributesInPlace (l : NewLayout) (pool : Pool) (attributes : List Attribute) :
    InPlace Unit := do
  let r : Relocation := ⟨l.offset, handlerMap (← get).indices⟩
  attributes.forM (moveAttributeInPlace r pool)

/-- A failure of an attribute in the words of a commit. -/
def explain (e : Error) : Error := if e.isStructural then e else .unfit 0 e

/-- Works out the new body on the desk. -/
def prepareInPlace (pool : Pool) : InPlace Unit := do
  modify fun d => { editor := d.editor }
  let e := (← get).editor
  let l := e.newLayout
  if l.newLength = 0 || 65536 ≤ l.newLength then
    throw (.structural 0 (.codeLength l.newLength))
  l.placed.forM (encodeInPlace l)
  e.body.handlers.forM (moveRowInPlace l)
  tryCatch (moveAttributesInPlace l pool e.body.attributes) fun err => throw (explain err)

/-- Replaces the body of the editor. -/
def putBody (change : Desk → MethodBody → MethodBody) : InPlace Unit :=
  modify fun d => { d with editor := { d.editor with body := change d d.editor.body } }

/-- Writes the new body over the old one, part by part, and starts over. -/
def overwriteInPlace : InPlace Unit := do
  putBody fun d body => { body with attributes := d.attributes }
  putBody fun d body => { body with bytecode := d.code }
  putBody fun d body => { body with handlers := d.handlers }
  modify fun d =>
    let instructions := (Instruction.decodeAll d.editor.body.bytecode).toOption.getD []
    { d with editor := { d.editor with staged := instructions.map fun ins => { original := ins } } }

/-- Applies the staged edits of the editor on the desk. -/
def commitInPlace (pool : Pool) : InPlace Unit := do
  if !(← get).editor.isModified then return
  prepareInPlace pool
  overwriteInPlace

end Editor

/-! ## Programs and what they amount to -/

variable {α β κ : Type}

/-- Running a program from the desk `d` amounts to the computation `x`: it fails
as `x` does, and otherwise `P` relates the desk that it leaves to the answer of
`x`.  Either way what `view` shows of the desk is as before. -/
def Amounts (view : Desk → κ) (program : InPlace Unit) (d : Desk) (x : Except Error α)
    (P : α → Desk → Prop) : Prop :=
  match x with
  | .ok a => ∃ d', program d = .ok () d' ∧ view d' = view d ∧ P a d'
  | .error e => ∃ d', program d = .error e d' ∧ view d' = view d

namespace Amounts

variable {view : Desk → κ} {program : InPlace Unit} {d : Desk} {x : Except Error α}
  {P Q : α → Desk → Prop}

/-- Two programs one after another amount to two computations one after another. -/
theorem bind {next : InPlace Unit} {f : α → Except Error β} {R : β → Desk → Prop}
    (h : Amounts view program d x P)
    (hnext : ∀ a d', view d' = view d → P a d' → Amounts view next d' (f a) R) :
    Amounts view (do program; next) d (x >>= f) R := by
  cases x with
  | error e =>
    obtain ⟨d', hrun, hview⟩ := h
    exact ⟨d', EStateM.bind_error hrun, hview⟩
  | ok a =>
    obtain ⟨d', hrun, hview, hP⟩ := h
    have hrest := hnext a d' hview hP
    have hbind := EStateM.bind_ok (f := fun _ => next) hrun
    show Amounts view _ d (f a) R
    cases hf : f a with
    | ok c =>
      rw [hf] at hrest
      obtain ⟨d'', hrun', hview', hR⟩ := hrest
      exact ⟨d'', hbind.trans hrun', hview'.trans hview, hR⟩
    | error e =>
      rw [hf] at hrest
      obtain ⟨d'', hrun', hview'⟩ := hrest
      exact ⟨d'', hbind.trans hrun', hview'.trans hview⟩

/-- Using the answer of a computation. -/
theorem use {next : α → InPlace Unit} {f : α → Except Error β} {R : β → Desk → Prop}
    (h : ∀ a, x = .ok a → Amounts view (next a) d (f a) R) :
    Amounts view (do next (← ofExcept x)) d (x >>= f) R := by
  cases x with
  | ok a =>
    have hrest := h a rfl
    show Amounts view (do next (← ofExcept (.ok a))) d (f a) R
    unfold Amounts at hrest ⊢
    exact hrest
  | error e => exact ⟨d, rfl, rfl⟩

/-- Writing to the desk. -/
theorem write {change : Desk → Desk} (hview : view (change d) = view d) {a : α}
    (hP : P a (change d)) : Amounts view (modify change) d (.ok a) P :=
  ⟨change d, rfl, hview, hP⟩

/-- Writing to the desk first. -/
theorem after_write {change : Desk → Desk} (hview : view (change d) = view d)
    (h : Amounts view program (change d) x P) : Amounts view (do modify change; program) d x P := by
  cases x with
  | ok a =>
    obtain ⟨d', hrun, hkept, hP⟩ := h
    exact ⟨d', hrun, hkept.trans hview, hP⟩
  | error e =>
    obtain ⟨d', hrun, hkept⟩ := h
    exact ⟨d', hrun, hkept.trans hview⟩

/-- Looking at the desk first. -/
theorem after_read {next : Desk → InPlace Unit} (h : Amounts view (next d) d x P) :
    Amounts view (do next (← get)) d x P := h

/-- A failure that is put into other words. -/
theorem reworded {words : Error → Error} (h : Amounts view program d x P) :
    Amounts view (tryCatch program fun e => throw (words e)) d (x.mapError words) P := by
  cases x with
  | ok a =>
    obtain ⟨d', hrun, hview, hP⟩ := h
    refine ⟨d', ?_, hview, hP⟩
    simp only [tryCatch, tryCatchThe, MonadExceptOf.tryCatch, EStateM.tryCatch, hrun]
  | error e =>
    obtain ⟨d', hrun, hview⟩ := h
    refine ⟨d', ?_, hview⟩
    simp only [tryCatch, tryCatchThe, MonadExceptOf.tryCatch, EStateM.tryCatch, hrun]
    rfl

theorem fail (e : Error) : Amounts view (throw e) d (.error e : Except Error α) P :=
  ⟨d, rfl, rfl⟩

/-- Putting the answer of a computation into another form. -/
theorem map {R : β → Desk → Prop} {g : α → β} (h : Amounts view program d x P)
    (himp : ∀ a d', P a d' → R (g a) d') : Amounts view program d (do return g (← x)) R := by
  cases x with
  | ok a =>
    obtain ⟨d', hrun, hview, hP⟩ := h
    exact ⟨d', hrun, hview, himp a d' hP⟩
  | error e => exact h

/-- A program for each item of a list amounts to a computation for each.  `R`
says what the programs do to the desk all together. -/
theorem forM {ι : Type} {program : ι → InPlace Unit} {f : ι → Except Error α}
    {S : Desk → α → Desk → Prop} {R : Desk → List α → Desk → Prop}
    (hstep : ∀ i d, Amounts view (program i) d (f i) (S d)) (hnil : ∀ d, R d [] d)
    (hcons : ∀ d d' d'' a rest, S d a d' → R d' rest d'' → R d (a :: rest) d'')
    (items : List ι) (d : Desk) : Amounts view (items.forM program) d (items.mapM f) (R d) := by
  induction items generalizing d with
  | nil => exact ⟨d, rfl, rfl, hnil d⟩
  | cons i items ih =>
    rw [List.mapM_cons]
    refine (hstep i d).bind fun a d' _ ha => ?_
    exact (ih d').map fun rest d'' hrest => hcons d d' d'' a rest ha hrest

end Amounts

/-! ## The parts of a commit -/

namespace Editor

theorem amounts_encode (l : NewLayout) (placed : List Placed) (d : Desk) :
    Amounts Desk.editor (placed.forM (encodeInPlace l)) d (placed.mapM l.encode) fun parts d' =>
      d' = { d with code := d.code ++ parts.flatten } := by
  refine Amounts.forM (S := fun d bytes d' => d' = { d with code := d.code ++ bytes })
    (R := fun d parts d' => d' = { d with code := d.code ++ parts.flatten })
    (fun p d => ?_) (fun d => by simp) (fun d d' d'' bytes parts => ?_) placed d
  · rw [← bind_pure (l.encode p)]
    exact Amounts.use fun bytes _ => Amounts.write rfl rfl
  · rintro rfl rfl
    simp

/-- The rows of the exception table are numbered on from those that have been
moved. -/
theorem amounts_moveRows (l : NewLayout) (rows : List Handler) (d : Desk) :
    Amounts Desk.editor (rows.forM (moveRowInPlace l)) d (l.handlers d.handlers.length rows)
      fun answer d' => d' =
        { d with handlers := d.handlers ++ answer.1, indices := d.indices ++ answer.2 } := by
  induction rows generalizing d with
  | nil => exact ⟨d, rfl, rfl, by simp⟩
  | cons h rows ih =>
    unfold NewLayout.handlers
    show Amounts _ (do moveRowInPlace l h; rows.forM (moveRowInPlace l)) d _ _
    unfold moveRowInPlace
    simp only [bind_assoc]
    refine Amounts.use fun start _ => Amounts.use fun stop _ => Amounts.use fun target _ => ?_
    split
    · refine Amounts.after_write rfl ((ih _).map ?_)
      rintro ⟨rows', indices⟩ d' rfl
      simp
    · have hlength (row : Handler) :
          (d.handlers ++ [row]).length = d.handlers.length + 1 := List.length_append
      refine Amounts.after_write rfl ?_
      rw [← hlength]
      refine (ih _).map ?_
      rintro ⟨rows', indices⟩ d' rfl
      simp

/-- What a desk holds beside the words of the attribute that is being moved. -/
def aside (d : Desk) : Desk := { d with info := [] }

theorem amounts_moveSites (r : Relocation) (name : String) (sites : List Layout.Site) (d : Desk) :
    Amounts aside (sites.forM (moveSiteInPlace r name)) d
      ((Layout.rewriteSites name (fun site info => monadLift (r.site site info)) sites
        d.info).run ()) fun answer d' => d'.info = answer.1 := by
  induction sites generalizing d with
  | nil => exact ⟨d, rfl, rfl, rfl⟩
  | cons site sites ih =>
    have hone : Amounts aside (moveSiteInPlace r name site) d
        ((r.site site d.info).mapError fun e =>
          if site.nested then e else .within (.attribute name) e) fun new d' =>
        d'.info = d.info.overwrite site.position new := by
      have hrun : moveSiteInPlace r name site d = (match r.site site d.info with
        | .ok new => modify fun d => { d with info := d.info.overwrite site.position new }
        | .error e => throw (if site.nested then e else .within (.attribute name) e) :
          InPlace Unit) d := rfl
      unfold Amounts
      rw [hrun]
      cases r.site site d.info with
      | ok new => exact ⟨_, rfl, rfl, rfl⟩
      | error e => exact ⟨_, rfl, rfl⟩
    have hrewrite : (Layout.rewriteSites name (fun site info => monadLift (r.site site info))
          (site :: sites) d.info).run () =
        ((r.site site d.info).mapError fun e =>
          if site.nested then e else .within (.attribute name) e) >>= fun new =>
          (Layout.rewriteSites name (fun site info => monadLift (r.site site info)) sites
            (d.info.overwrite site.position new)).run () := by
      rw [Layout.rewriteSites]
      simp only [StateT.run_bind]
      unfold Layout.Change.explain
      cases r.site site d.info <;> rfl
    rw [hrewrite]
    refine hone.bind fun new d' _ hd' => ?_
    rw [← hd']
    exact ih d'

/-- However far the copy of an attribute has been moved, nothing else has. -/
theorem amounts_moveInfo (r : Relocation) (pool : Pool) (name : String) (info : Bytes) (d : Desk) :
    Amounts aside (moveInfoInPlace r pool name info) d
      ((Layout.rewrite pool name (fun site info => monadLift (r.site site info)) info).run ())
      fun answer d' => d'.info = answer.1 := by
  refine Amounts.after_write rfl ?_
  unfold Layout.rewrite
  rw [StateT.run_bind]
  refine (amounts_moveSites r name _ _).bind fun answer d' _ hd' => ?_
  cases (Layout.visit pool name info).failure with
  | none => exact ⟨d', rfl, rfl, hd'⟩
  | some e => exact ⟨d', rfl, rfl⟩

theorem amounts_moveAttribute (r : Relocation) (pool : Pool) (a : Attribute) (d : Desk) :
    Amounts Desk.editor (moveAttributeInPlace r pool a) d (r.attribute_ pool a) fun a' d' =>
      aside d' = { aside d with attributes := d.attributes ++ [a'] } := by
  cases a with
  | code i name body => exact Amounts.fail _
  | raw i name info =>
    unfold moveAttributeInPlace Relocation.attribute_
    dsimp only
    by_cases hmap : name = "StackMapTable"
    · rw [if_pos hmap, if_pos hmap]
      exact Amounts.use fun info' _ => ⟨_, rfl, rfl, rfl⟩
    · rw [if_neg hmap, if_neg hmap]
      have hput (a' : Attribute) (d' : Desk) (haside : aside d' = aside d) :
          ∃ d'', putAttribute a' d' = .ok () d'' ∧ d''.editor = d.editor ∧
            aside d'' = { aside d with attributes := d.attributes ++ [a'] } := by
        refine ⟨_, rfl, (congrArg Desk.editor haside :), ?_⟩
        show { aside d' with attributes := (aside d').attributes ++ [a'] } = _
        rw [haside]
        rfl
      have hmove := amounts_moveInfo r pool name info d
      cases hrewrite : (Layout.rewrite pool name
          (fun site info => monadLift (r.site site info)) info).run () with
      | ok answer =>
        rw [hrewrite] at hmove
        obtain ⟨d', hrun, haside, hinfo⟩ := hmove
        obtain ⟨d'', hdone, hrest⟩ := hput (.raw i name answer.1) d' haside
        refine ⟨d'', ?_, hrest⟩
        unfold moveWordsInPlace
        rw [hrun, ← hdone, ← hinfo]
      | error e =>
        rw [hrewrite] at hmove
        obtain ⟨d', hrun, haside⟩ := hmove
        unfold moveWordsInPlace
        dsimp only
        cases hroot : e.root with
        | unknownAttribute other =>
          obtain ⟨d'', hdone, hrest⟩ := hput (.raw i name info) d' haside
          refine ⟨d'', ?_, hrest⟩
          simp only [hrun, hroot]
          exact hdone
        | _ =>
          refine ⟨d', ?_, (congrArg Desk.editor haside :)⟩
          simp only [hrun, hroot]

theorem amounts_moveAttributes (l : NewLayout) (pool : Pool) (attributes : List Attribute)
    {indices : List (Option Nat)} {d : Desk} (hindices : d.indices = indices) :
    Amounts Desk.editor (moveAttributesInPlace l pool attributes) d
      (attributes.mapM (Relocation.attribute_ ⟨l.offset, handlerMap indices⟩ pool))
      fun attributes' d' =>
        aside d' = { aside d with attributes := d.attributes ++ attributes' } := by
  subst hindices
  refine Amounts.after_read (Amounts.forM
    (S := fun d a' d' => aside d' = { aside d with attributes := d.attributes ++ [a'] })
    (R := fun d as d' => aside d' = { aside d with attributes := d.attributes ++ as })
    (amounts_moveAttribute _ pool) (fun d => ?_) (fun d d' d'' a as ha has => ?_) attributes d)
  · rw [List.append_nil]
    rfl
  · have hattributes : d'.attributes = d.attributes ++ [a] := congrArg Desk.attributes ha
    rw [has, ha, hattributes, List.append_assoc]
    rfl

/-- The steps of working out the new body. -/
theorem edited_eq (e : Editor) (pool : Pool) :
    e.edited pool =
      if e.newLayout.newLength = 0 || 65536 ≤ e.newLayout.newLength then
        throw (.structural 0 (.codeLength e.newLayout.newLength))
      else do
        let parts ← e.newLayout.placed.mapM e.newLayout.encode
        let answer ← e.newLayout.handlers 0 e.body.handlers
        let r : Relocation := ⟨e.newLayout.offset, handlerMap answer.2⟩
        let attributes ← (e.body.attributes.mapM (r.attribute_ pool)).mapError explain
        return { e.body with bytecode := parts.flatten, handlers := answer.1, attributes } := by
  unfold edited
  dsimp only
  split
  · rfl
  · refine congrArg (Bind.bind _) (funext fun parts => congrArg (Bind.bind _) (funext fun answer => ?_))
    obtain ⟨handlers, indices⟩ := answer
    dsimp only
    split
    · rename_i attributes hattributes
      replace hattributes : e.body.attributes.mapM (Relocation.attribute_
        ⟨e.newLayout.offset, handlerMap indices⟩ pool) = .ok attributes := hattributes
      rw [hattributes]
      rfl
    · rename_i err hattributes
      replace hattributes : e.body.attributes.mapM (Relocation.attribute_
        ⟨e.newLayout.offset, handlerMap indices⟩ pool) = .error err := hattributes
      rw [hattributes]
      rfl

/-- The desk ends up with the parts of the new body. -/
theorem amounts_prepare (pool : Pool) (d : Desk) :
    Amounts Desk.editor (prepareInPlace pool) d (d.editor.edited pool) fun body d' =>
      body = { d.editor.body with
        bytecode := d'.code, handlers := d'.handlers, attributes := d'.attributes } := by
  rw [edited_eq]
  refine Amounts.after_write rfl (Amounts.after_read ?_)
  dsimp only
  by_cases hlength : (decide (d.editor.newLayout.newLength = 0) ||
      decide (65536 ≤ d.editor.newLayout.newLength)) = true
  · rw [if_pos hlength, if_pos hlength]
    exact ⟨_, rfl, rfl⟩
  · rw [if_neg hlength, if_neg hlength]
    refine (amounts_encode _ _ _).bind fun parts d₁ _ hd₁ => ?_
    subst hd₁
    refine (amounts_moveRows _ _ _).bind fun answer d₂ _ hd₂ => ?_
    subst hd₂
    have hmove := amounts_moveAttributes d.editor.newLayout pool d.editor.body.attributes
      (d := ⟨d.editor, [] ++ parts.flatten, [] ++ answer.1, [] ++ answer.2, [], []⟩) rfl
    refine hmove.reworded.map fun attributes d' haside => ?_
    have hcode : d'.code = parts.flatten := congrArg Desk.code haside
    have hhandlers : d'.handlers = answer.1 := congrArg Desk.handlers haside
    have hattributes : d'.attributes = attributes := congrArg Desk.attributes haside
    rw [hcode, hhandlers, hattributes]

/-- Nothing fails when the parts of the body are replaced. -/
theorem overwriteInPlace_eq (d : Desk) : ∃ d', overwriteInPlace d = .ok () d' ∧
    d'.editor =
      { body := { d.editor.body with
          bytecode := d.code, handlers := d.handlers, attributes := d.attributes }
        staged := ((Instruction.decodeAll d.code).toOption.getD []).map
          fun ins => { original := ins } } :=
  ⟨_, rfl, rfl⟩

/-- A commit in place succeeds with the editor that a commit answers with, or
fails as a commit does and leaves the editor as it was. -/
theorem commitInPlace_cases (pool : Pool) (d : Desk) :
    (∃ d', commitInPlace pool d = .ok () d' ∧ d.editor.commit pool = .ok d'.editor) ∨
      ∃ e d', commitInPlace pool d = .error e d' ∧ d.editor.commit pool = .error e ∧
        d'.editor = d.editor := by
  have hrun : commitInPlace pool d =
      (if !d.editor.isModified then return else do prepareInPlace pool; overwriteInPlace :
        InPlace Unit) d := rfl
  rw [hrun]
  unfold commit
  by_cases hmodified : (!d.editor.isModified) = true
  · rw [if_pos hmodified, if_pos hmodified]
    exact .inl ⟨d, rfl, rfl⟩
  · rw [if_neg hmodified, if_neg hmodified]
    have hprepare := amounts_prepare pool d
    cases hedited : d.editor.edited pool with
    | ok body =>
      rw [hedited] at hprepare
      obtain ⟨d', hdone, heditor, rfl⟩ := hprepare
      obtain ⟨d'', hover, heditor'⟩ := overwriteInPlace_eq d'
      refine .inl ⟨d'', (EStateM.bind_ok hdone).trans hover, ?_⟩
      rw [heditor', heditor]
      rfl
    | error e =>
      rw [hedited] at hprepare
      obtain ⟨d', hdone, heditor⟩ := hprepare
      exact .inr ⟨e, d', EStateM.bind_error hdone, rfl, heditor⟩

/-- A commit in place that succeeds leaves the editor that a commit answers with.
One that fails leaves the editor as it was: its body with the code, the exception
table and the attributes, its instructions and the edits staged at them.  The
failure is about the layout of the edits, and another commit fails in the same
way. -/
theorem commitInPlace_atomic (pool : Pool) (d : Desk) :
    match commitInPlace pool d with
    | .ok () d' => d.editor.commit pool = .ok d'.editor
    | .error e d' => d'.editor = d.editor ∧ e.isStructural = true ∧
        d.editor.commit pool = .error e ∧
        ∃ d'', commitInPlace pool d' = .error e d'' ∧ d''.editor = d.editor := by
  rcases commitInPlace_cases pool d with ⟨d', hrun, hcommit⟩ | ⟨e, d', hrun, hcommit, heditor⟩
  · rw [hrun]
    exact hcommit
  · rw [hrun]
    refine ⟨heditor, commit_refuses _ _ e hcommit, hcommit, ?_⟩
    rw [← heditor] at hcommit ⊢
    -- What the first commit has left on the desk does not matter to the second.
    rcases commitInPlace_cases pool d' with ⟨d'', -, hcommit'⟩ | ⟨e', d'', hrun', hcommit', hkept⟩
    · rw [hcommit] at hcommit'
      cases hcommit'
    · obtain rfl := Except.error.inj (hcommit.symm.trans hcommit')
      exact ⟨d'', hrun', hkept⟩

end Editor

end Cleartext

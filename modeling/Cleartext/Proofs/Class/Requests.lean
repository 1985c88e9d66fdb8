import Cleartext.Proofs.Class.Growing
import Cleartext.Proofs.Text.Utf16

/-!
# Requests to a pool

A pool is asked for constants, one after another: for a constant itself, or for a text, a
class, a string, a name with its type or a reference, which take up to five constants that
refer to each other.

* `Request.files`: a request adds constants, and no equal ones.
* `Request.At.readsBack`: what stands at the index that a request answers reads as what was
  asked for, text for text.
* `session_kept` puts this together for any sequence of requests to a pool that was read or
  is new.
-/

namespace Cleartext.Pool

variable {p q : Pool} {c : Constant} {i j : UInt16}

/-! ## Answers that stay -/

theorem Extends.units {u : Units} (h : p.Extends q) (hu : p.units i = .ok u) : q.units i = .ok u := by
  obtain ⟨raw, hraw, hdecode⟩ := units_ok.1 hu
  exact units_ok.2 ⟨raw, h i _ hraw, hdecode⟩

theorem Extends.stringUnits {u : Units} (h : p.Extends q) (hu : p.stringUnits i = .ok u) :
    q.stringUnits i = .ok u := by
  obtain ⟨c, hc, hread⟩ := Except.bind_ok.1 hu
  cases c with
  | string text => exact Except.bind_ok.2 ⟨_, get_ok.2 (h i _ (get_ok.1 hc)), h.units hread⟩
  | _ => cases hread

theorem Extends.value {v : Loadable} (h : p.Extends q) (hv : p.value i = .ok v) :
    q.value i = .ok v := by
  obtain ⟨c, hc, hread⟩ := Except.bind_ok.1 hv
  refine Except.bind_ok.2 ⟨c, get_ok.2 (h i _ (get_ok.1 hc)), ?_⟩
  cases c with
  | string text =>
    obtain ⟨u, hu, hread⟩ := Except.bind_ok.1 hread
    exact Except.bind_ok.2 ⟨u, h.units hu, hread⟩
  | class_ name =>
    obtain ⟨s, hs, hread⟩ := Except.bind_ok.1 hread
    exact Except.bind_ok.2 ⟨s, h.text hs, hread⟩
  | _ => exact hread

/-- What could be looked up in `p` is found in `q`, with the same answer. -/
structure Resolves (p q : Pool) : Prop where
  entry : ∀ i c, p.get? i = some c → q.get? i = some c
  units : ∀ i u, p.units i = .ok u → q.units i = .ok u
  text : ∀ i s, p.text i = .ok s → q.text i = .ok s
  className : ∀ i s, p.className i = .ok s → q.className i = .ok s
  stringUnits : ∀ i u, p.stringUnits i = .ok u → q.stringUnits i = .ok u
  nameAndType : ∀ i names, p.nameAndType i = .ok names → q.nameAndType i = .ok names
  ref : ∀ i r, p.ref i = .ok r → q.ref i = .ok r
  value : ∀ i v, p.value i = .ok v → q.value i = .ok v

theorem Extends.resolves (h : p.Extends q) : p.Resolves q where
  entry := h
  units _ _ := h.units
  text _ _ := h.text
  className _ _ := h.className
  stringUnits _ _ := h.stringUnits
  nameAndType _ _ := h.nameAndType
  ref _ _ := h.ref
  value _ _ := h.value

/-! ## Requests -/

/-- What a pool can be asked for.  A number is asked for as its constant. -/
inductive Request
  | constant (c : Constant)
  | units (u : Units)
  | text (s : String)
  | class_ (name : String)
  | stringUnits (u : Units)
  | string (s : String)
  | nameAndType (name descriptor : String)
  | ref (kind : Tag) (owner name descriptor : String)

namespace Request

/-- The edit that serves a request. -/
def edit : Request → Edit UInt16
  | constant c => Edit.add c
  | units u => Edit.units u
  | text s => Edit.text s
  | class_ name => Edit.class_ name
  | stringUnits u => Edit.stringUnits u
  | string s => Edit.string s
  | nameAndType name descriptor => Edit.nameAndType name descriptor
  | ref kind owner name descriptor => Edit.ref kind owner name descriptor

/-- A constant that is asked for is one that a pool can hold, and a reference is one of a
field or a method. -/
def Proper : Request → Prop
  | constant c => c.Proper
  | ref kind _ _ _ => kind = .field ∨ kind = .method ∨ kind = .interfaceMethod
  | _ => True

/-- The entry of a text. -/
def TextAt (s : String) (q : Pool) (i : UInt16) : Prop :=
  q.get? i = some (.utf8 (ModifiedUtf8.encode (Units.ofText s)))

/-- The entry of a class and its text. -/
def ClassAt (name : String) (q : Pool) (i : UInt16) : Prop :=
  ∃ n, TextAt name q n ∧ q.get? i = some (.class_ n)

/-- The entry of a string and its text. -/
def StringAt (u : Units) (q : Pool) (i : UInt16) : Prop :=
  ∃ n, q.get? n = some (.utf8 (ModifiedUtf8.encode u)) ∧ q.get? i = some (.string n)

/-- The entry of a name with its type and their texts. -/
def NameAndTypeAt (name descriptor : String) (q : Pool) (i : UInt16) : Prop :=
  ∃ n, TextAt name q n ∧ ∃ d, TextAt descriptor q d ∧ q.get? i = some (.nameAndType n d)

/-- The constant that was asked for stands at an index, and so does all that it refers to. -/
def At : Request → Pool → UInt16 → Prop
  | constant c, q, i => q.get? i = some c
  | units u, q, i => q.get? i = some (.utf8 (ModifiedUtf8.encode u))
  | text s, q, i => TextAt s q i
  | class_ name, q, i => ClassAt name q i
  | stringUnits u, q, i => StringAt u q i
  | string s, q, i => StringAt (Units.ofText s) q i
  | nameAndType name descriptor, q, i => NameAndTypeAt name descriptor q i
  | ref kind owner name descriptor, q, i =>
    ∃ o, ClassAt owner q o ∧ ∃ t, NameAndTypeAt name descriptor q t ∧ q.get? i = some (.member kind o t)

/-- Looking an index up gives back exactly what was asked for. -/
def ReadsBack : Request → Pool → UInt16 → Prop
  | constant c, q, i => q.get i = .ok c
  | units u, q, i => q.units i = .ok u
  | text s, q, i => q.text i = .ok s
  | class_ name, q, i => q.className i = .ok name
  | stringUnits u, q, i => q.stringUnits i = .ok u
  | string s, q, i => q.stringUnits i = .ok (Units.ofText s) ∧ q.stringText i = .ok s
  | nameAndType name descriptor, q, i => q.nameAndType i = .ok (name, descriptor)
  | ref kind owner name descriptor, q, i => q.ref i = .ok ⟨kind, owner, name, descriptor⟩

theorem files {r : Request} (h : r.Proper) : Edit.Files r.edit r.At := by
  cases r with
  | constant c => exact Edit.files_add h
  | units u => exact Edit.files_add True.intro
  | text s => exact Edit.files_text s
  | class_ name => exact Edit.files_class name
  | stringUnits u => exact Edit.files_stringUnits u
  | string s => exact Edit.files_stringUnits (Units.ofText s)
  | nameAndType name descriptor => exact Edit.files_nameAndType name descriptor
  | ref kind owner name descriptor => exact Edit.files_ref h owner name descriptor

theorem TextAt.text {s : String} (h : TextAt s q i) : q.text i = .ok s := by
  rw [text_of_get? h, Units.text_ofText]

theorem ClassAt.className {name : String} (h : ClassAt name q i) : q.className i = .ok name := by
  obtain ⟨n, hn, hi⟩ := h
  exact className_ok.2 ⟨n, hi, hn.text⟩

theorem StringAt.stringUnits {u : Units} (h : StringAt u q i) : q.stringUnits i = .ok u := by
  obtain ⟨n, hn, hi⟩ := h
  exact Except.bind_ok.2 ⟨_, get_ok.2 hi, units_ok.2 ⟨_, hn, ModifiedUtf8.decode_encode u⟩⟩

theorem NameAndTypeAt.nameAndType {name descriptor : String} (h : NameAndTypeAt name descriptor q i) :
    q.nameAndType i = .ok (name, descriptor) := by
  obtain ⟨n, hn, d, hd, hi⟩ := h
  exact Except.bind_ok.2 ⟨_, get_ok.2 hi, Except.bind_ok.2 ⟨name, hn.text,
    Except.bind_ok.2 ⟨descriptor, hd.text, rfl⟩⟩⟩

theorem At.readsBack {r : Request} (h : r.At q i) : r.ReadsBack q i := by
  cases r with
  | constant c => exact get_ok.2 h
  | units u => exact units_ok.2 ⟨_, h, ModifiedUtf8.decode_encode u⟩
  | text s => exact TextAt.text h
  | class_ name => exact ClassAt.className h
  | stringUnits u => exact StringAt.stringUnits h
  | string s =>
    have hunits := StringAt.stringUnits h
    exact ⟨hunits, Except.map_ok.2 ⟨_, hunits, Units.text_ofText s⟩⟩
  | nameAndType name descriptor => exact NameAndTypeAt.nameAndType h
  | ref kind owner name descriptor =>
    obtain ⟨o, ho, t, ht, hi⟩ := h
    exact Except.bind_ok.2 ⟨_, get_ok.2 hi, Except.bind_ok.2 ⟨owner, ho.className,
      Except.bind_ok.2 ⟨(name, descriptor), ht.nameAndType, rfl⟩⟩⟩

end Request

/-! ## Sessions -/

/-- The pool after some requests, the refused ones included. -/
def after (p : Pool) (rs : List Request) : Pool := rs.foldl (fun p r => (p.edit r.edit).2) p

theorem after_append (p : Pool) (rs rs' : List Request) :
    p.after (rs ++ rs') = (p.after rs).after rs' :=
  List.foldl_append

theorem after_cons (p : Pool) (r : Request) (rs : List Request) :
    p.after (r :: rs) = (p.edit r.edit).2.after rs :=
  rfl

theorem Indexed.after (h : p.Indexed) {rs : List Request} (hrs : ∀ r ∈ rs, r.Proper) :
    (p.after rs).Indexed ∧ p.Grows (p.after rs) := by
  induction rs generalizing p with
  | nil => exact ⟨h, .refl p⟩
  | cons r rs ih =>
    obtain ⟨hr, hrs⟩ := List.forall_mem_cons.1 hrs
    obtain ⟨hindexed, hgrows, -⟩ := Request.files hr p h
    obtain ⟨hlast, hrest⟩ := ih hindexed hrs
    exact ⟨hlast, hgrows.trans hrest⟩

/-- What became of a request to the pool `p`, as the later pool `q` shows it. -/
structure Request.Served (r : Request) (p q : Pool) : Prop where
  /-- It is refused only because the pool is full. -/
  refused : ∀ err, (p.edit r.edit).1 = .error err → err = .poolFull
  /-- What was asked for stands at the index that was answered. -/
  stored : ∀ i, (p.edit r.edit).1 = .ok i → r.At q i
  /-- It is read from there as it was passed in. -/
  readBack : ∀ i, (p.edit r.edit).1 = .ok i → r.ReadsBack q i
  /-- Asking again is answered the same, and adds nothing. -/
  again : ∀ i, (p.edit r.edit).1 = .ok i → q.edit r.edit = (.ok i, q)
  /-- Equal entries are those that were there before. -/
  distinct : ∀ i j c, (p.edit r.edit).2.get? i = some c → (p.edit r.edit).2.get? j = some c →
    i ≠ j → p.get? i = some c ∧ p.get? j = some c
  /-- A new constant is refused when it does not fit, and the pool stays. -/
  full : ∀ c, r = .constant c → (∀ i, p.get? i ≠ some c) → 65535 < p.count + c.width →
    p.edit r.edit = (.error .poolFull, p)
  /-- It is added when it fits, in the slots behind all the others. -/
  added : ∀ c, r = .constant c → (∀ i, p.get? i ≠ some c) → p.count + c.width ≤ 65535 →
    (p.edit r.edit).1 = .ok p.count.toUInt16 ∧ (p.edit r.edit).2.count = p.count + c.width

theorem Indexed.index_eq_none (h : p.Indexed) (hc : ∀ i, p.get? i ≠ some c) : p.index[c]? = none := by
  cases hindex : p.index[c]? with
  | none => rfl
  | some i => exact absurd ((h.index c i).1 hindex).found (hc i)

theorem Indexed.served (h : p.Indexed) {r : Request} (hr : r.Proper)
    (hq : (p.edit r.edit).2.Grows q) : r.Served p q := by
  obtain ⟨-, hgrows, hrefused, hright⟩ := Request.files hr p h
  refine ⟨hrefused, fun i hi => (hright i hi q hq).1, fun i hi => (hright i hi q hq).1.readsBack,
    fun i hi => (hright i hi q hq).2, hgrows.distinct, ?_, ?_⟩
  · rintro c rfl hc hfull
    show p.add c = _
    rcases add_cases p c with ⟨i, hi, -⟩ | ⟨-, -, hadd⟩ | ⟨-, hroom, -⟩
    · cases hi.symm.trans (h.index_eq_none hc)
    · exact hadd
    · omega
  · rintro c rfl hc hroom
    show (p.add c).1 = _ ∧ (p.add c).2.count = _
    rcases add_cases p c with ⟨i, hi, -⟩ | ⟨-, hfull, -⟩ | ⟨-, -, hadd⟩
    · cases hi.symm.trans (h.index_eq_none hc)
    · omega
    · rw [hadd]
      exact ⟨rfl, count_append p c⟩

/-- What holds of a session that began with the pool `p`, and so of every part of it. -/
structure SessionKept (p : Pool) (rs : List Request) : Prop where
  gaps : (p.after rs).Gaps
  count_le : (p.after rs).count ≤ 65535
  /-- What could be looked up at any earlier time still can. -/
  resolves : ∀ earlier later, rs = earlier ++ later → (p.after earlier).Resolves (p.after rs)
  served : ∀ earlier r later, rs = earlier ++ r :: later → r.Served (p.after earlier) (p.after rs)

/-- Over any session of requests to a new pool, or to one that was read, only slot zero and
the slots behind longs and doubles hold nothing, entries keep their indices, and every
request is served: it is answered with an entry for what was asked, the same one when it is
asked again, or refused for want of room. -/
theorem session_kept (hp : p = empty ∨ ∃ c c', Pool.read.run c = .ok (p, c'))
    {rs : List Request} (hrs : ∀ r ∈ rs, r.Proper) : p.SessionKept rs := by
  have hindexed : p.Indexed := by
    rcases hp with rfl | ⟨c, c', hread⟩
    · exact indexed_empty
    · exact indexed_read hread
  obtain ⟨hlast, -⟩ := hindexed.after hrs
  refine ⟨hlast.wellFormed.gaps, ?_, ?_, ?_⟩
  · obtain ⟨-, -, -, hcount⟩ := hlast.wellFormed
    omega
  · rintro earlier later rfl
    obtain ⟨hearlier, hlater⟩ := List.forall_mem_append.1 hrs
    rw [after_append]
    exact ((hindexed.after hearlier).1.after hlater).2.kept.resolves
  · rintro earlier r later rfl
    obtain ⟨hearlier, hlater⟩ := List.forall_mem_append.1 hrs
    obtain ⟨hr, hlater⟩ := List.forall_mem_cons.1 hlater
    have hasked := (hindexed.after hearlier).1
    rw [after_append, after_cons]
    exact hasked.served hr ((Request.files hr _ hasked).1.after hlater).2

/-- The slots of a pool with the text `a` twice, and a number behind it. -/
def doubledSlots : List (Option Constant) :=
  [none, some (.utf8 [97]), some (.utf8 [97]), some (.long 7), none]

theorem readable_doubledSlots : (ofSlots doubledSlots).Readable := by
  refine ⟨_, rfl, by decide, ?_, ?_, dangling?_eq_none.1 rfl⟩
  · exact .narrow True.intro rfl <| .narrow True.intro rfl <| .wide True.intro rfl .nil
  · intro c hc
    simp only [List.mem_cons, Option.some.injEq, List.not_mem_nil, or_false, reduceCtorEq]
      at hc
    rcases hc with rfl | rfl | rfl
    all_goals simp only [Constant.Fits]
    all_goals decide

/-- Asking a pool that has a text twice for a string, for numbers that it has and has not,
and for a reference. -/
theorem session_kept_doubled : (ofSlots doubledSlots).SessionKept
    [.string "a", .constant (.long 7), .constant (.double 7), .ref .method "a" "b" "()V"] := by
  have hread : ∃ c c', Pool.read.run c = .ok (ofSlots doubledSlots, c') :=
    ⟨_, ⟨[], _, _⟩, read_ok.2 ⟨rfl, readable_doubledSlots, (Cursor.start_reads rfl).2 ⟨rfl, rfl⟩⟩⟩
  refine session_kept (.inr hread) fun r hr => ?_
  simp only [List.mem_cons, List.not_mem_nil, or_false] at hr
  rcases hr with rfl | rfl | rfl | rfl
  · exact True.intro
  · exact True.intro
  · exact True.intro
  · exact .inr (.inl rfl)

end Cleartext.Pool

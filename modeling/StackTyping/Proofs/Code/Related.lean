import StackTyping.Proofs.Slot.Related
import StackTyping.Rule.Delegate

/-!
Bodies that differ in the choice of related types only.

Types are named in the signature of a body, in its locals, by its instructions, which name types
themselves or members with theirs, and by the rows of its exception table that catch a class. Two
bodies are related if each of these types in the one is related to the type in the same place of the
other, and if all else is equal. Such bodies have the same branches, the same blocks and the same
function in front of every constructor.
-/

namespace StackTyping

variable {T : Ty → Ty → Prop} {cat cat' : Catalog}

/-! ### Members -/

def Method.types (m : Method) : List Ty := .entry m.declaring :: m.ret :: m.params

def Field.types (f : Field) : List Ty := [.entry f.declaring, f.type]

namespace Catalog.Corresponds

variable (h : Corresponds T cat cat')
include h

lemma methodText {m : Method} (hm : ∀ t ∈ m.types, T t t) :
    cat.methodText m = cat'.methodText m := by
  simp only [Method.types, List.forall_mem_cons] at hm
  obtain ⟨hdeclaring, hret, hparams⟩ := hm
  have hnames : m.params.map cat.nameOf = m.params.map cat'.nameOf :=
    List.map_congr_left fun t ht => h.nameOf t t (hparams t ht)
  rw [Catalog.methodText, Catalog.methodText, h.nameOf _ _ hdeclaring, h.nameOf _ _ hret, hnames]

lemma fieldText {f : Field} (hf : ∀ t ∈ f.types, T t t) : cat.fieldText f = cat'.fieldText f := by
  simp only [Field.types, List.forall_mem_cons] at hf
  rw [Catalog.fieldText, Catalog.fieldText, h.nameOf _ _ hf.1, h.nameOf _ _ hf.2.1]

end Catalog.Corresponds

/-! ### Instructions -/

namespace Instr

variable {i i' instr : Instr}

/-- The type that an instruction names itself. -/
def operand? : Instr → Option Ty
  | newarr t | ldelem t | ldelema t | stelem t | ldind t | stind t | ldobj t | stobj t | initobj t
  | sizeof t | castclass t | isinst t | box t | unbox t | unboxAny t => some t
  | _ => none

/-- The types that an instruction names, itself or by its member. -/
def types : Instr → List Ty
  | call m _ | callvirt m _ | newobj m | ldftn m | ldvirtftn m => m.types
  | ldfld f | ldflda f | stfld f | ldsfld f | ldsflda f | stsfld f => f.types
  | instr => instr.operand?.toList

/-- The same instruction, up to the choice of the type it names. A member is not chosen again. -/
inductive Related (T : Ty → Ty → Prop) : Instr → Instr → Prop where
  | plain {instr : Instr} (h : instr.operand? = none) (htypes : ∀ t ∈ instr.types, T t t) :
      Related T instr instr
  | newarr {s t : Ty} (h : T s t) : Related T (.newarr s) (.newarr t)
  | ldelem {s t : Ty} (h : T s t) : Related T (.ldelem s) (.ldelem t)
  | ldelema {s t : Ty} (h : T s t) : Related T (.ldelema s) (.ldelema t)
  | stelem {s t : Ty} (h : T s t) : Related T (.stelem s) (.stelem t)
  | ldind {s t : Ty} (h : T s t) : Related T (.ldind s) (.ldind t)
  | stind {s t : Ty} (h : T s t) : Related T (.stind s) (.stind t)
  | ldobj {s t : Ty} (h : T s t) : Related T (.ldobj s) (.ldobj t)
  | stobj {s t : Ty} (h : T s t) : Related T (.stobj s) (.stobj t)
  | initobj {s t : Ty} (h : T s t) : Related T (.initobj s) (.initobj t)
  | sizeof {s t : Ty} (h : T s t) : Related T (.sizeof s) (.sizeof t)
  | castclass {s t : Ty} (h : T s t) : Related T (.castclass s) (.castclass t)
  | isinst {s t : Ty} (h : T s t) : Related T (.isinst s) (.isinst t)
  | box {s t : Ty} (h : T s t) : Related T (.box s) (.box t)
  | unbox {s t : Ty} (h : T s t) : Related T (.unbox s) (.unbox t)
  | unboxAny {s t : Ty} (h : T s t) : Related T (.unboxAny s) (.unboxAny t)

lemma related_self (h : ∀ t ∈ instr.types, T t t) : instr.Related T instr := by
  cases instr with
  | newarr t => exact .newarr (h t List.mem_cons_self)
  | ldelem t => exact .ldelem (h t List.mem_cons_self)
  | ldelema t => exact .ldelema (h t List.mem_cons_self)
  | stelem t => exact .stelem (h t List.mem_cons_self)
  | ldind t => exact .ldind (h t List.mem_cons_self)
  | stind t => exact .stind (h t List.mem_cons_self)
  | ldobj t => exact .ldobj (h t List.mem_cons_self)
  | stobj t => exact .stobj (h t List.mem_cons_self)
  | initobj t => exact .initobj (h t List.mem_cons_self)
  | sizeof t => exact .sizeof (h t List.mem_cons_self)
  | castclass t => exact .castclass (h t List.mem_cons_self)
  | isinst t => exact .isinst (h t List.mem_cons_self)
  | box t => exact .box (h t List.mem_cons_self)
  | unbox t => exact .unbox (h t List.mem_cons_self)
  | unboxAny t => exact .unboxAny (h t List.mem_cons_self)
  | _ => exact .plain rfl h

namespace Related

lemma eq_or_isSome (h : Related T i i') : i = i' ∨ i.operand?.isSome ∧ i'.operand?.isSome := by
  cases h with
  | plain _ _ => exact Or.inl rfl
  | _ => exact Or.inr ⟨rfl, rfl⟩

/-- An instruction that names no type itself is related to itself only. -/
lemma eq_plain_iff (h : Related T i i') (hinstr : instr.operand? = none) :
    i = instr ↔ i' = instr := by
  rcases h.eq_or_isSome with rfl | ⟨hi, hi'⟩
  · rfl
  · constructor
    · rintro rfl
      rw [hinstr] at hi
      cases hi
    · rintro rfl
      rw [hinstr] at hi'
      cases hi'

lemma targets_eq (h : Related T i i') : i.targets = i'.targets := by
  cases h <;> rfl

lemma fallsThrough_eq (h : Related T i i') : i.fallsThrough = i'.fallsThrough := by
  cases h <;> rfl

lemma mnemonic_eq (h : Related T i i') : i.mnemonic = i'.mnemonic := by
  cases h <;> rfl

end Related

end Instr

/-! ### Signatures -/

namespace Signature

variable {sig sig' : Signature}

def types (sig : Signature) : List Ty :=
  sig.declaring :: (sig.params.flatMap (·.ty.toList) ++ sig.ret.ty.toList)

/-- The same signature, up to the choice of types. -/
structure Related (T : Ty → Ty → Prop) (sig sig' : Signature) : Prop where
  declaring : T sig.declaring sig'.declaring
  params : List.Forall₂ (Slot.Related T) sig.params sig'.params
  ret : sig.ret.Related T sig'.ret
  isStatic : sig.isStatic = sig'.isStatic
  dispatch : sig.dispatch = sig'.dispatch

lemma related_self (h : ∀ t ∈ sig.types, T t t) : sig.Related T sig := by
  simp only [types, List.forall_mem_cons, List.forall_mem_append] at h
  obtain ⟨hdeclaring, hparams, hret⟩ := h
  refine ⟨hdeclaring, List.forall₂_same.2 fun a ha => Slot.related_self fun t ht => ?_,
    Slot.related_self fun t ht => hret t (Option.mem_toList.2 ht), rfl, rfl⟩
  exact hparams t (List.mem_flatMap.2 ⟨a, ha, Option.mem_toList.2 ht⟩)

end Signature

namespace Catalog.Corresponds

variable {sig sig' : Signature} (h : Corresponds T cat cat') (hsig : sig.Related T sig')
include h hsig

lemma receiver? : Option.Rel (Slot.Related T) (sig.receiver? cat) (sig'.receiver? cat') := by
  unfold Signature.receiver?
  rw [hsig.isStatic, hsig.dispatch, h.isBoxable hsig.declaring]
  split
  · exact .none
  · split
    · cases sig'.dispatch with
      | direct => exact .some (Slot.related_declared (h.pointer_of _ _ hsig.declaring))
      | virtual => exact .some (h.boxedOf hsig.declaring)
    · exact .some (Slot.related_declared hsig.declaring)

lemma arguments : List.Forall₂ (Slot.Related T) (sig.arguments cat) (sig'.arguments cat') := by
  refine List.rel_append ?_ hsig.params
  have hreceiver := h.receiver? hsig
  generalize sig.receiver? cat = a? at hreceiver ⊢
  generalize sig'.receiver? cat' = b? at hreceiver ⊢
  cases hreceiver with
  | none => exact .nil
  | some hab => exact .cons hab .nil

lemma hasResult : sig.hasResult cat = sig'.hasResult cat' := by
  rw [Signature.hasResult, Signature.hasResult, h.slot_isVoid hsig.ret]

end Catalog.Corresponds

lemma Method.related_signature {m : Method} (hm : ∀ t ∈ m.types, T t t) (dispatch : Dispatch) :
    (m.signature dispatch).Related T (m.signature dispatch) := by
  simp only [types, List.forall_mem_cons] at hm
  obtain ⟨hdeclaring, hret, hparams⟩ := hm
  refine ⟨hdeclaring, ?_, Slot.related_declared hret, rfl, rfl⟩
  exact List.forall₂_map_left_iff.2 (List.forall₂_map_right_iff.2
    (List.forall₂_same.2 fun t ht => Slot.related_declared (hparams t ht)))

/-! ### Exception regions -/

namespace RegionKind

def type? : RegionKind → Option Ty
  | typedCatch t => some t
  | _ => none

/-- The same kind of region, up to the choice of the class it catches. -/
inductive Related (T : Ty → Ty → Prop) : RegionKind → RegionKind → Prop where
  | plain {k : RegionKind} (h : k.type? = none) : Related T k k
  | typedCatch {s t : Ty} (h : T s t) : Related T (.typedCatch s) (.typedCatch t)

lemma related_self {k : RegionKind} (h : ∀ t ∈ k.type?, T t t) : k.Related T k := by
  cases k with
  | typedCatch t => exact .typedCatch (h t rfl)
  | _ => exact .plain rfl

end RegionKind

namespace Region

variable {r r' : Region}

inductive Related (T : Ty → Ty → Prop) (r : Region) : Region → Prop where
  | intro {k : RegionKind} (h : r.kind.Related T k) : Related T r { r with kind := k }

namespace Related

lemma tryBlock_eq (h : r.Related T r') : r.tryBlock = r'.tryBlock := by
  cases h
  rfl

lemma entryPoints_eq (h : r.Related T r') : r.entryPoints = r'.entryPoints := by
  cases h
  rfl

lemma entryBlocks_eq (h : r.Related T r') : r.entryBlocks = r'.entryBlocks := by
  obtain ⟨k, a, b, c, d, e⟩ := r
  obtain ⟨hk⟩ := h
  cases hk <;> rfl

end Related

end Region

namespace Catalog.Corresponds

variable {r r' : Region} (h : Corresponds T cat cat') (hr : r.Related T r')
include h hr

lemma exception : (r.exception cat).Related T (r'.exception cat') := by
  obtain ⟨k, a, b, c, d, e⟩ := r
  obtain ⟨hk⟩ := hr
  cases hk with
  | plain hnone =>
    have hobject := Slot.related_declared h.object
    cases k with
    | typedCatch t => cases hnone
    | _ => exact hobject
  | typedCatch hst => exact h.boxedOf hst

lemma regionText : r.text cat = r'.text cat' := by
  obtain ⟨k, a, b, c, d, e⟩ := r
  obtain ⟨hk⟩ := hr
  unfold Region.text
  cases hk with
  | plain hnone =>
    cases k with
    | typedCatch t => cases hnone
    | _ => rfl
  | typedCatch hst =>
    dsimp only
    rw [h.nameOf _ _ hst]

end Catalog.Corresponds

/-! ### Bodies -/

namespace Body

variable {body body' : Body} {instr : Instr}

/-- The types that a body names. -/
def types (body : Body) : List Ty :=
  body.signature.types ++ body.locals ++ body.code.flatMap Instr.types
    ++ body.regions.flatMap (·.kind.type?.toList)

/-- The same body, up to the choice of types. -/
structure Related (T : Ty → Ty → Prop) (body body' : Body) : Prop where
  signature : body.signature.Related T body'.signature
  locals : List.Forall₂ T body.locals body'.locals
  code : List.Forall₂ (Instr.Related T) body.code body'.code
  regions : List.Forall₂ (Region.Related T) body.regions body'.regions

lemma related_self (h : ∀ t ∈ body.types, T t t) : body.Related T body := by
  simp only [types, List.forall_mem_append] at h
  obtain ⟨⟨⟨hsig, hlocals⟩, hcode⟩, hregions⟩ := h
  refine ⟨Signature.related_self hsig, List.forall₂_same.2 hlocals,
    List.forall₂_same.2 fun instr hinstr => Instr.related_self fun t ht => ?_,
    List.forall₂_same.2 fun r hr => .intro (RegionKind.related_self fun t ht => ?_)⟩
  · exact hcode t (List.mem_flatMap.2 ⟨instr, hinstr, ht⟩)
  · exact hregions t (List.mem_flatMap.2 ⟨r, hr, Option.mem_toList.2 ht⟩)

namespace Related

lemma landings_eq (h : body.Related T body') : body.landings = body'.landings := by
  rw [landings, landings, flatMap_eq h.code fun _ _ hi => hi.targets_eq,
    flatMap_eq h.regions fun _ _ hr => hr.entryPoints_eq]

lemma getElem?_eq_some_iff (h : body.Related T body') (hinstr : instr.operand? = none) (i : Nat) :
    body.code[i]? = some instr ↔ body'.code[i]? = some instr := by
  have hrel := getElem?_rel h.code i
  generalize body.code[i]? = i? at hrel ⊢
  generalize body'.code[i]? = i'? at hrel ⊢
  cases hrel with
  | none => rfl
  | some hi =>
    rw [Option.some.injEq, Option.some.injEq]
    exact hi.eq_plain_iff hinstr

lemma before?_eq_some_iff (h : body.Related T body') (hinstr : instr.operand? = none)
    (i k : Nat) : body.before? i k = some instr ↔ body'.before? i k = some instr := by
  unfold before?
  split
  · exact h.getElem?_eq_some_iff hinstr _
  · rfl

lemma types_of_before? (h : body.Related T body') {i k : Nat} (hinstr : instr.operand? = none)
    (hat : body.before? i k = some instr) : ∀ t ∈ instr.types, T t t := by
  unfold before? at hat
  split at hat
  · have hrel := getElem?_rel h.code (i - k)
    rw [hat] at hrel
    generalize body'.code[i - k]? = i'? at hrel
    cases hrel with
    | some hi =>
      cases hi with
      | plain _ htypes => exact htypes
      | _ => cases hinstr
  · cases hat

end Related

lemma le_of_before? {i k : Nat} (h : body.before? i k = some instr) : k ≤ i := by
  by_contra hlt
  rw [before?, if_neg hlt] at h
  cases h

/-- The function in front of a position is the one that `ldftn` loads, or `dup` and `ldvirtftn`. -/
lemma functionBefore?_eq_some_iff {i : Nat} {m : Method} : body.functionBefore? i = some m ↔
    body.before? i 1 = some (.ldftn m) ∨
      body.before? i 2 = some .dup ∧ body.before? i 1 = some (.ldvirtftn m) := by
  unfold functionBefore?
  split
  · rename_i heq
    simp [heq]
  · rename_i hdup heq
    simp [heq, hdup]
  · rename_i hldftn hldvirtftn
    constructor
    · intro h
      cases h
    · rintro (h | ⟨hdup, h⟩)
      · exact absurd h (hldftn m)
      · exact absurd h (hldvirtftn m hdup)

namespace Related

lemma functionBefore?_eq (h : body.Related T body') (i : Nat) :
    body.functionBefore? i = body'.functionBefore? i := by
  refine Option.ext fun m => ?_
  rw [functionBefore?_eq_some_iff, functionBefore?_eq_some_iff, h.before?_eq_some_iff rfl,
    h.before?_eq_some_iff rfl, h.before?_eq_some_iff rfl]

lemma types_of_functionBefore? (h : body.Related T body') {i : Nat} {m : Method}
    (hm : body.functionBefore? i = some m) : ∀ t ∈ m.types, T t t := by
  rcases functionBefore?_eq_some_iff.1 hm with hat | ⟨-, hat⟩
  · exact h.types_of_before? rfl hat
  · exact h.types_of_before? rfl hat

end Related

end Body

end StackTyping

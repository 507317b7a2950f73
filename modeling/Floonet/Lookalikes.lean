import Floonet.Folding
import Floonet.Registrations
import Mathlib.Data.List.TakeWhile

/-!
# Look-alikes of reserved names

A name is reserved exactly when it can be turned into a reserved term by
inserting and deleting separators and by swapping digits with the letters they
resemble.  No registration, in whatever interleaving, makes a name active that
can be turned into a label of the operator's domain.
-/

namespace Floonet

open Concurrent Folding System Text

/-! ## Moves -/

def Separator (c : Char) : Prop :=
  c ∈ ['.', '_', '-']

/-- A digit and the letter it resembles. -/
def Lookalike (digit letter : Char) : Prop :=
  (digit, letter) ∈ [('0', 'o'), ('1', 'i'), ('3', 'e'), ('4', 'a'),
    ('5', 's'), ('7', 't'), ('8', 'b'), ('9', 'g')]

/-- `name` can be turned into `term`. -/
def Impersonates (name term : String) : Prop :=
  Turns Separator Lookalike name.toList term.toList

theorem foldLookalikeChar_normalizes :
    Normalizes foldLookalikeChar Separator Lookalike where
  erases c := by
    unfold foldLookalikeChar Separator
    split <;> simp_all
  identifies digit letter isPair := by
    simp only [Lookalike, List.mem_cons, Prod.mk.injEq, List.not_mem_nil,
      or_false] at isPair
    rcases isPair with ⟨rfl, rfl⟩ | ⟨rfl, rfl⟩ | ⟨rfl, rfl⟩ | ⟨rfl, rfl⟩ |
      ⟨rfl, rfl⟩ | ⟨rfl, rfl⟩ | ⟨rfl, rfl⟩ | ⟨rfl, rfl⟩ <;> rfl
  represents c image folded := by
    unfold foldLookalikeChar at folded
    split at folded <;> cases folded <;> simp [Lookalike]

theorem impersonates_iff {name term : String} :
    Impersonates name term ↔ foldLookalike name = foldLookalike term :=
  foldLookalikeChar_normalizes.turns_iff

theorem isReserved_iff {name : String} {extra : List String} :
    isReserved name extra = true ↔
      ∃ term, (term ∈ reserved ∨ term ∈ extra) ∧ Impersonates name term := by
  have listed : isReserved name extra = true ↔
      ((name ∈ reserved ∨ name ∈ extra) ∨
        (∃ term ∈ reserved, foldLookalike term = foldLookalike name) ∨
        ∃ term ∈ extra, foldLookalike term = foldLookalike name) := by
    unfold isReserved
    split
    · rename_i outright
      simp only [Bool.or_eq_true, List.contains_iff_mem] at outright
      exact ⟨fun _ => .inl outright, fun _ => rfl⟩
    · rename_i notOutright
      simp only [Bool.or_eq_true, List.contains_iff_mem] at notOutright
      simp only [Bool.or_eq_true, List.any_eq_true, beq_iff_eq, notOutright,
        false_or]
  rw [listed]
  constructor
  · rintro (outright | ⟨term, member, same⟩ | ⟨term, member, same⟩)
    · exact ⟨name, outright, .refl⟩
    · exact ⟨term, .inl member, impersonates_iff.mpr same.symm⟩
    · exact ⟨term, .inr member, impersonates_iff.mpr same.symm⟩
  · rintro ⟨term, member | member, impersonates⟩
    · exact .inr (.inl ⟨term, member, (impersonates_iff.mp impersonates).symm⟩)
    · exact .inr (.inr ⟨term, member, (impersonates_iff.mp impersonates).symm⟩)

/-! ## Labels of the domain -/

/-- The labels of a domain except its top-level domain. -/
def nonTldLabels (domain : String) : List (List Char) :=
  (((trim domain).toList.splitOn '.').filter fun label =>
    !label.isEmpty).dropLast

theorem labels_replicate (count : Nat) :
    ((List.replicate count '.').splitOn '.').filter
      (fun label => !label.isEmpty) = [] := by
  induction count with
  | zero => rfl
  | succ count induction =>
      have split := List.splitOn_append_cons_self (a := '.') []
        (List.replicate count '.')
      rw [List.replicate_succ]
      rw [List.nil_append] at split
      rw [split, List.filter_append, induction]
      rfl

theorem labels_trimmed (chars : List Char) :
    ((chars.reverse.dropWhile (· == '.')).reverse.splitOn '.').filter
        (fun label => !label.isEmpty) =
      (chars.splitOn '.').filter fun label => !label.isEmpty := by
  obtain ⟨count, whole⟩ : ∃ count, chars =
      (chars.reverse.dropWhile (· == '.')).reverse ++
        List.replicate count '.' := by
    have dots : ∀ c ∈ chars.reverse.takeWhile (· == '.'), c = '.' := by
      intro c member
      have isDot := List.mem_takeWhile_imp member
      exact eq_of_beq isDot
    have parts := congrArg List.reverse
      (List.takeWhile_append_dropWhile (p := (· == '.')) (l := chars.reverse))
    rw [List.eq_replicate_of_mem dots, List.reverse_append,
      List.reverse_replicate, List.reverse_reverse] at parts
    exact ⟨_, parts.symm⟩
  generalize (chars.reverse.dropWhile (· == '.')).reverse = host at whole ⊢
  subst whole
  cases count with
  | zero => rw [List.replicate_zero, List.append_nil]
  | succ count =>
      rw [List.replicate_succ, List.splitOn_append_cons_self,
        List.filter_append, labels_replicate, List.append_nil]

theorem mem_domainReserved {tables : CaseTables} {domain : String}
    {label : List Char} (member : label ∈ nonTldLabels domain) :
    tables.toLowercase (String.ofList label) ∈
      domainReserved tables domain := by
  unfold domainReserved
  dsimp only
  rw [labels_trimmed]
  refine List.mem_map.mpr ⟨label, ?_, rfl⟩
  split
  · exact member
  · rename_i single
    have isNil : nonTldLabels domain = [] := by
      rw [nonTldLabels, List.dropLast_eq_take, List.take_eq_nil_iff]
      omega
    rw [isNil] at member
    cases member

/-! ## Registrations -/

variable {ext : Extern} {cfg : Config}
  {permitted : Permission World Request Op Op.Ans Response}

/-- The domain's own labels are among the reserved names. -/
def Config.ReservesDomain (cfg : Config) (tables : CaseTables) : Prop :=
  ∀ term ∈ domainReserved tables cfg.domain, term ∈ cfg.extraReserved

theorem ValidName.not_impersonates {name : String} {label : List Char}
    (validName : ValidName cfg name) (reserves : cfg.ReservesDomain ext.cases)
    (member : label ∈ nonTldLabels cfg.domain) :
    ¬Impersonates (ext.cases.toLowercase (String.ofList label)) name := by
  intro impersonates
  have isReserved := isReserved_iff.mpr
    ⟨_, .inr (reserves _ (mem_domainReserved member)), impersonates.symm⟩
  rw [validName.unreserved] at isReserved
  cases isReserved

/-- A registration makes no look-alike of a label active, whatever the tables
hold. -/
theorem register_unreserved (reserves : cfg.ReservesDomain ext.cases)
    (headers : Headers) (body : Bytes) :
    (routes ext cfg (.register headers body)).Every
      (fun _ op => ∀ name key, op = .db (.insertName name key) →
        ∀ label ∈ nonTldLabels cfg.domain,
          ¬Impersonates (ext.cases.toLowercase (String.ofList label)) name)
      (fun _ _ => True) [] := by
  refine (routes_leads ext cfg (.register headers body)).mono ?_
    fun _ _ _ _ => trivial
  rintro past op - leads name key rfl label member
  cases leads with
  | silent silent => cases silent
  | register _ accepted =>
      exact (registerRequest_valid accepted).1.not_impersonates reserves member

/-- Reservation is the closure of the reserved terms under the moves of a
look-alike, and no look-alike of a label of the domain is ever registered. -/
theorem reserved_closure (ext : Extern) (cfg : Config) :
    (∀ name extra, isReserved name extra = true ↔
      ∃ term, (term ∈ reserved ∨ term ∈ extra) ∧ Impersonates name term) ∧
    (cfg.ReservesDomain ext.cases → ∀ label ∈ nonTldLabels cfg.domain,
      (∀ headers body, (routes ext cfg (.register headers body)).Every
        (fun _ op => ∀ name key, op = .db (.insertName name key) →
          ¬Impersonates (ext.cases.toLowercase (String.ofList label)) name)
        (fun _ _ => True) []) ∧
      ∀ permitted pool, (server ext cfg).Reachable permitted pool →
        ∀ name owner, pool.state.db.lookup name = some owner →
          ¬Impersonates (ext.cases.toLowercase (String.ofList label)) name) := by
  refine ⟨fun name extra => isReserved_iff, fun reserves label member =>
    ⟨fun headers body => ?_, ?_⟩⟩
  · refine (register_unreserved reserves headers body).mono ?_
      fun _ _ _ => id
    exact fun _ _ _ unreserved name key isInsert =>
      unreserved name key isInsert label member
  · intro permitted pool reachable name owner owned
    have valid := (Reachable.wellNamed reachable).names name owner owned
    exact valid.1.not_impersonates reserves member

namespace Sample

def lookalikeBody : Bytes := registerBody "f-l0onet" seller

/-- Third-party code that knows the registration of a look-alike. -/
def lookalikeHost : Extern :=
  { host with
    registerBody := fun bytes =>
      if bytes = lookalikeBody then some ⟨"f-l0onet", seller⟩ else none
    sha256 := fun bytes =>
      if bytes = lookalikeBody then (hexDecode
        "36e4ac062d06d8247b23aa8794b3af8476af4781a6c23561fe20938cb26f0ae0").getD
          []
      else host.sha256 bytes }

/-- The seller signs the registration of a look-alike. -/
def lookalikeHeaders : Headers :=
  signRequest lookalikeHost config
    (.ofHex "9c5e7ae0c2b1d0f54a3cbb53be5b3b0ab9ef1bd2a3a8ef0d3d4b0c7f5a1e6d28")
    (.ofHex seller) (.ofNat start) .post "/api/v1/register" lookalikeBody

/-- With the label `floonet` reserved, `f-l0onet` is a reserved name; its
registration is refused and makes no look-alike active. -/
theorem reserved_closure_floonet :
    isReserved "f-l0onet" ["floonet"] = true ∧
      registerRequest lookalikeHost config seller lookalikeBody =
        .error (err .forbidden "name reserved") ∧
      (routes lookalikeHost config
        (.register lookalikeHeaders lookalikeBody)).Every
          (fun _ op => ∀ name key, op = .db (.insertName name key) →
            ¬Impersonates (lookalikeHost.cases.toLowercase "floonet") name)
          (fun _ _ => True) [] := by
  obtain ⟨closure, registers⟩ := reserved_closure lookalikeHost config
  have reserves : config.ReservesDomain lookalikeHost.cases := by
    unfold Config.ReservesDomain
    decide +kernel
  have member : "floonet".toList ∈ nonTldLabels config.domain := by
    decide +kernel
  have read : lookalikeHost.registerBody lookalikeBody =
      some ⟨"f-l0onet", seller⟩ := by
    simp [lookalikeHost]
  have refused : registerRequest lookalikeHost config seller lookalikeBody =
      .error (err .forbidden "name reserved") := by
    have name : lookalikeHost.cases.toLowercase "f-l0onet" = "f-l0onet" := by
      decide +kernel
    have key : lookalikeHost.cases.toLowercase seller = seller := by
      decide +kernel
    have valid : validName "f-l0onet" config.nameMin config.nameMax = true := by
      decide +kernel
    have isReserved : isReserved "f-l0onet" config.extraReserved = true := by
      decide +kernel
    simp only [registerRequest, read, Validation.demand, Validation.require,
      bind, Except.bind, name, key, seller_valid, beq_self_eq_true, valid,
      isReserved, Bool.not_true, Bool.false_eq_true, if_true, if_false]
  refine ⟨(closure "f-l0onet" ["floonet"]).mpr ⟨"floonet", .inr
    List.mem_cons_self, impersonates_iff.mpr (by decide +kernel)⟩, refused, ?_⟩
  have never := (registers reserves _ member).1 lookalikeHeaders lookalikeBody
  rwa [String.ofList_toList] at never

end Sample

end Floonet

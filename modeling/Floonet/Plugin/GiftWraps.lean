import Floonet.Plugin.Decisions

/-!
# The shape of gift wraps

An accepted gift wrap has one tag with its recipient, except that tags of one
element are let through, and so is a newline at the end of the recipient's
key: the first do not count as recipients, and the dollar sign at the end of
the expression matches before the second.
-/

namespace Floonet.Plugin

open Python

variable {Secs : Type} [LinearOrder Secs] [Add Secs] [OfNat Secs 10]
  {tables : Unicode} {req : Value} {cfg : Cfg Secs} {outside : Outside Secs}
  {state : PluginState Secs} {fields : List (Str × Value)}

/-- The only tag is the recipient's, with 64 lower-case hexadecimal digits. -/
def SingleRecipient (fields : List (Str × Value)) : Prop :=
  ∃ pubkey rest, field fields "tags" =
      .list [.list (.str (str "p") :: .str pubkey :: rest)] ∧
    pubkey.length = 64 ∧ pubkey.all isHexLower = true

/-- The tag is a list of one element. -/
def IsBare (tag : Value) : Prop := ∃ head, tag = .list [head]

/-- The second element of the tag is a text with a newline at its end. -/
def EndsInNewline (tag : Value) : Prop :=
  ∃ head text rest, tag = .list (head :: .str (text ++ [ascii '\n']) :: rest)

/-- No tag is bare, and none has a second element that ends in a newline. -/
def PlainTags (fields : List (Str × Value)) : Prop :=
  ∀ tags, field fields "tags" = .list tags →
    ∀ tag ∈ tags, ¬ IsBare tag ∧ ¬ EndsInNewline tag

/-! ## What the checks let through -/

theorem eqStr_eq_true {value : Value} {text : Str} :
    value.eqStr text = true ↔ value = .str text := by
  cases value <;> simp [Value.eqStr]

theorem headed_eq_true {head : Str} {tag : Value} :
    headed head tag = true ↔ ∃ rest, tag = .list (.str head :: rest) := by
  cases tag with
  | list items =>
      cases items with
      | nil => simp [headed]
      | cons first rest => simp [headed, eqStr_eq_true]
  | _ => simp [headed]

theorem recipient_passes {tags : List Value} {refusal : Str}
    (passes : (match tags.filterMap (headedSecond (str "p")) with
      | [.str pubkey] =>
          if reMatch hex64LowerRe pubkey then none else some refusal
      | _ => some refusal) = none) :
    ∃ pubkey, tags.filterMap (headedSecond (str "p")) = [.str pubkey] ∧
      reMatch hex64LowerRe pubkey = true := by
  split at passes
  · rename_i pubkey only
    refine ⟨pubkey, only, ?_⟩
    by_cases matched : reMatch hex64LowerRe pubkey = true
    · exact matched
    · rw [if_neg matched] at passes
      cases passes
  · cases passes

/-- The tags of an accepted gift wrap. -/
theorem Accepts.giftwrap (accepts : Accepts tables req cfg outside state)
    (event : HasEvent req fields)
    (wrap : (field fields "kind").eqInt 1059 = true) :
    ∃ tags pubkey, field fields "tags" = .list tags ∧
      (∀ tag ∈ tags, ∃ rest, tag = .list (.str (str "p") :: rest)) ∧
      tags.filterMap (headedSecond (str "p")) = [.str pubkey] ∧
      reMatch hex64LowerRe pubkey = true := by
  obtain ⟨fields', event', kindPasses, -, recipient, only, -⟩ :=
    accepts_iff.mp accepts
  have sameEvent := event.symm.trans event'
  cases sameEvent
  obtain ⟨kind, -, isKind⟩ := (checkKind_passes event).mp kindPasses
  rw [isKind] at wrap
  have isWrap : kind = 1059 := beq_iff_eq.mp wrap
  obtain ⟨tags, isTags, recipient⟩ :=
    (onGiftwrap_passes event isKind _).mp recipient isWrap
  obtain ⟨tags', isTags', only⟩ :=
    (onGiftwrap_passes event isKind _).mp only isWrap
  cases isTags.symm.trans isTags'
  obtain ⟨pubkey, single, matched⟩ := recipient_passes recipient
  refine ⟨tags, pubkey, isTags, fun tag member => ?_, single, matched⟩
  have all : tags.all (headed (str "p")) = true := by
    by_contra other
    rw [if_neg other] at only
    cases only
  exact headed_eq_true.mp (List.all_eq_true.mp all tag member)

/-- An accepted gift wrap has the shape the policy asks for exactly when none
of its tags is bare or ends in a newline. -/
theorem giftwrap_shape_iff (accepts : Accepts tables req cfg outside state)
    (event : HasEvent req fields)
    (wrap : (field fields "kind").eqInt 1059 = true) :
    SingleRecipient fields ↔ PlainTags fields := by
  obtain ⟨tags, pubkey, isTags, headed, single, matched⟩ :=
    accepts.giftwrap event wrap
  obtain ⟨body, length, digits, isBody⟩ := reMatch_anchored.mp matched
  constructor
  · rintro ⟨recipient, rest, isRecipient, -, recipientDigits⟩ tags' isTags' tag
      member
    cases isRecipient.symm.trans isTags'
    cases List.mem_singleton.mp member
    constructor
    · rintro ⟨head, isBare⟩
      cases isBare
    · rintro ⟨_, text, _, isTag⟩
      cases isTag
      have newline := List.all_eq_true.mp recipientDigits (ascii '\n')
        (List.mem_append_right _ List.mem_cons_self)
      exact absurd newline (by decide)
  · intro plain
    have second : ∀ tag ∈ tags, ∃ value rest,
        tag = .list (.str (str "p") :: value :: rest) := by
      intro tag member
      obtain ⟨rest, rfl⟩ := headed tag member
      cases rest with
      | nil => exact absurd ⟨_, rfl⟩ (plain tags isTags _ member).1
      | cons value rest => exact ⟨value, rest, rfl⟩
    cases tags with
    | nil => cases single
    | cons first others =>
        obtain ⟨value, rest, rfl⟩ := second first List.mem_cons_self
        rw [List.filterMap_cons_some (b := value) (by simp [headedSecond,
          Value.eqStr])] at single
        obtain ⟨rfl, none⟩ := List.cons.inj single
        cases others with
        | nil =>
            refine ⟨pubkey, rest, isTags, ?_⟩
            rcases isBody with rfl | rfl
            · exact ⟨length, digits⟩
            · exact absurd ⟨_, body, rest, rfl⟩
                (plain _ isTags _ List.mem_cons_self).2
        | cons other others =>
            obtain ⟨value', rest', rfl⟩ := second other
              (List.mem_cons_of_mem _ List.mem_cons_self)
            simp [headedSecond, Value.eqStr] at none

section Samples

/-- A gift wrap with these tags. -/
def wrapFields (tags : List Value) : List (Str × Value) :=
  [(str "kind", .int 1059), (str "tags", .list tags)]

def wrapReq (tags : List Value) : Value :=
  .dict [(str "event", .dict (wrapFields tags))]

def recipientTag (pubkey : Str) : Value :=
  .list [.str (str "p"), .str pubkey]

/-- The default policy accepts the event. -/
abbrev AcceptedByDefault (req : Value) : Prop :=
  Accepts Unicode.basic req defaultCfg (unreachable 0) .initial

theorem giftwrap_shape_iff_recipient :
    AcceptedByDefault (wrapReq [recipientTag sampleKey]) ∧
      (SingleRecipient (wrapFields [recipientTag sampleKey]) ↔
        PlainTags (wrapFields [recipientTag sampleKey])) := by
  have accepts : AcceptedByDefault (wrapReq [recipientTag sampleKey]) :=
    accepts_iff_accepted.mpr (by decide +kernel)
  exact ⟨accepts, giftwrap_shape_iff accepts rfl rfl⟩

/-- A bare tag and a newline at the end of the key are accepted. -/
theorem giftwrap_misshapen :
    (AcceptedByDefault (wrapReq [.list [.str (str "p")],
        recipientTag sampleKey]) ∧
      ¬ SingleRecipient (wrapFields [.list [.str (str "p")],
        recipientTag sampleKey])) ∧
    AcceptedByDefault (wrapReq [recipientTag (sampleKey ++ [ascii '\n'])]) ∧
      ¬ SingleRecipient (wrapFields
        [recipientTag (sampleKey ++ [ascii '\n'])]) := by
  refine ⟨⟨accepts_iff_accepted.mpr (by decide +kernel), ?_⟩,
    accepts_iff_accepted.mpr (by decide +kernel), ?_⟩
  · rintro ⟨pubkey, rest, isTags, -⟩
    cases isTags
  · rintro ⟨pubkey, rest, isTags, length, -⟩
    cases isTags
    exact absurd length (by decide)

end Samples

end Floonet.Plugin

import Mathlib.Data.List.Forall2
import Mathlib.Logic.Relation

/-! Stages that pass on what they get, in its order, and may lose some of it.

What comes out of a stage is related element by element to a sublist of what
went in. Stages compose, and a stage may be followed while looking at the
elements that matter alone.
-/

set_option autoImplicit false

namespace Relay
open List (Forall₂ SublistForall₂)
open scoped List

universe u v w
variable {α : Type u} {β : Type v} {γ : Type w} {R : α → β → Prop} {out : List α} {source : List β}

/-- A stage that loses nothing before something that it passes on. -/
def Follows (R : α → β → Prop) (out : List α) (source : List β) : Prop :=
  ∃ front, front <+: source ∧ Forall₂ R out front

theorem Follows.nil (R : α → β → Prop) (source : List β) : Follows R [] source := ⟨[], List.nil_prefix, .nil⟩

theorem Follows.of_forall (related : Forall₂ R out source) : Follows R out source :=
  ⟨source, List.prefix_refl source, related⟩

theorem Follows.relayed (follows : Follows R out source) : SublistForall₂ R out source := by
  obtain ⟨front, sub, related⟩ := follows
  exact List.sublistForall₂_iff.mpr ⟨front, related, sub.sublist⟩

theorem Follows.later (follows : Follows R out source) {more : List β} (sub : source <+: more) :
    Follows R out more := by
  obtain ⟨front, before, related⟩ := follows
  exact ⟨front, before.trans sub, related⟩

theorem Follows.earlier (follows : Follows R out source) {front : List α} (sub : front <+: out) :
    Follows R front source := by
  obtain ⟨kept, before, related⟩ := follows
  obtain ⟨rest, rfl⟩ := sub
  have first := List.forall₂_take_append kept front rest related.flip
  exact ⟨_, (List.take_prefix _ kept).trans before, first.flip⟩

theorem Follows.imp {S : α → β → Prop} (follows : Follows R out source) (sub : ∀ a b, R a b → S a b) :
    Follows S out source := by
  obtain ⟨front, before, related⟩ := follows
  exact ⟨front, before, related.imp sub⟩

theorem forall₂_comp {S : β → γ → Prop} {origin : List γ} (second : Forall₂ R out source)
    (first : Forall₂ S source origin) : Forall₂ (Relation.Comp R S) out origin := by
  induction second generalizing origin with
  | nil =>
    cases first
    exact .nil
  | cons last _ ih =>
    cases first with
    | cons related first => exact .cons ⟨_, last, related⟩ (ih first)

theorem Follows.comp {S : β → γ → Prop} {origin : List γ} (second : Follows R out source)
    (first : Follows S source origin) : Follows (Relation.Comp R S) out origin := by
  obtain ⟨front, sub, related⟩ := second
  obtain ⟨kept, before, first⟩ := first.earlier sub
  exact ⟨kept, before, forall₂_comp related first⟩

theorem forall₂_with_mem (related : Forall₂ R out source) : Forall₂ (fun a b => b ∈ source ∧ R a b) out source :=
  ((List.forall₂_and_left source out).mpr ⟨fun _ member => member, related.flip⟩).flip

theorem Follows.map_left {γ : Type*} {f : γ → α} {out : List γ} (follows : Follows R (out.map f) source) :
    Follows (fun c b => R (f c) b) out source := by
  obtain ⟨front, before, related⟩ := follows
  exact ⟨front, before, List.forall₂_map_left_iff.mp related⟩

theorem forall₂_filter {p : α → Bool} {q : β → Bool} (related : Forall₂ R out source)
    (alike : ∀ a b, R a b → p a = q b) : Forall₂ R (out.filter p) (source.filter q) := by
  induction related with
  | nil => exact .nil
  | @cons a b _ _ first _ ih =>
    have same := alike a b first
    cases matters : q b with
    | false =>
      rw [matters] at same
      rwa [List.filter_cons_of_neg (by rw [same]; exact Bool.false_ne_true),
        List.filter_cons_of_neg (by rw [matters]; exact Bool.false_ne_true)]
    | true =>
      rw [List.filter_cons_of_pos (same.trans matters), List.filter_cons_of_pos matters]
      exact .cons first ih

theorem filterMap_eq {δ : Type*} {f : α → Option δ} {g : β → Option δ} (related : Forall₂ R out source)
    (same : ∀ a b, R a b → f a = g b) : out.filterMap f = source.filterMap g := by
  induction related with
  | nil => rfl
  | cons first _ ih => rw [List.filterMap_cons, List.filterMap_cons, same _ _ first, ih]

theorem Follows.filter {p : α → Bool} {q : β → Bool} (follows : Follows R out source)
    (alike : ∀ a b, R a b → p a = q b) : Follows R (out.filter p) (source.filter q) := by
  obtain ⟨front, before, related⟩ := follows
  exact ⟨front.filter q, before.filter q, forall₂_filter related alike⟩

theorem Follows.filterMap {δ : Type*} {f : α → Option δ} {g : β → Option δ} (follows : Follows R out source)
    (same : ∀ a b, R a b → f a = g b) : out.filterMap f <+: source.filterMap g := by
  obtain ⟨front, before, related⟩ := follows
  rw [filterMap_eq related same]
  exact before.filterMap g

/-- A stage that has passed on as many elements as it got has passed on all of them. -/
theorem Follows.whole (follows : Follows R out source) (long : source.length ≤ out.length) : Forall₂ R out source := by
  obtain ⟨front, before, related⟩ := follows
  rw [related.length_eq] at long
  rwa [before.eq_of_length_le long] at related

theorem later (relayed : SublistForall₂ R out source) {more : List β} (sub : source <+ more) :
    SublistForall₂ R out more := by
  obtain ⟨kept, related, part⟩ := List.sublistForall₂_iff.mp relayed
  exact List.sublistForall₂_iff.mpr ⟨kept, related, part.trans sub⟩

theorem concat (relayed : SublistForall₂ R out source) {a : α} {b : β} (related : R a b) :
    SublistForall₂ R (out ++ [a]) (source ++ [b]) := by
  induction relayed with
  | @nil source =>
    have last : SublistForall₂ R [a] [b] := .cons related .nil
    exact later last (List.sublist_append_right source [b])
  | cons first _ ih => exact .cons first ih
  | cons_right _ ih => exact .cons_right ih

theorem mono {S : α → β → Prop} (relayed : SublistForall₂ R out source) (sub : ∀ a b, R a b → S a b) :
    SublistForall₂ S out source := by
  obtain ⟨kept, related, part⟩ := List.sublistForall₂_iff.mp relayed
  exact List.sublistForall₂_iff.mpr ⟨kept, related.imp sub, part⟩

theorem exists_of_mem (related : Forall₂ R out source) {b : β} (member : b ∈ source) : ∃ a ∈ out, R a b := by
  induction related with
  | nil => cases member
  | cons first _ ih =>
    rcases List.mem_cons.mp member with rfl | later
    · exact ⟨_, List.mem_cons_self, first⟩
    · obtain ⟨a, below, both⟩ := ih later
      exact ⟨a, List.mem_cons_of_mem _ below, both⟩

/-- One stage behind another. -/
theorem comp {S : β → γ → Prop} {origin : List γ} (second : SublistForall₂ R out source)
    (first : SublistForall₂ S source origin) : SublistForall₂ (Relation.Comp R S) out origin := by
  induction first generalizing out with
  | nil =>
    cases second
    exact .nil
  | cons related _ ih =>
    cases second with
    | nil => exact .nil
    | cons last second => exact .cons ⟨_, last, related⟩ (ih second)
    | cons_right second => exact .cons_right (ih second)
  | cons_right _ ih => exact .cons_right (ih second)

theorem filterMap {α' : Type*} {β' : Type*} {S : α' → β' → Prop} {f : α → Option α'} {g : β → Option β'}
    (kept : ∀ a b x, R a b → f a = some x → ∃ y, g b = some y ∧ S x y)
    (relayed : SublistForall₂ R out source) : SublistForall₂ S (out.filterMap f) (source.filterMap g) := by
  induction relayed with
  | nil => exact .nil
  | @cons a b out source related _ ih =>
    cases image : f a with
    | none =>
      rw [List.filterMap_cons_none image]
      exact later ih ((List.sublist_cons_self b source).filterMap g)
    | some x =>
      obtain ⟨y, found, both⟩ := kept a b x related image
      rw [List.filterMap_cons_some image, List.filterMap_cons_some found]
      exact .cons both ih
  | @cons_right b out source _ ih => exact later ih ((List.sublist_cons_self b source).filterMap g)

theorem skip_head {δ : Type*} {f : α → Option δ} {b : β} (silent : ∀ a, R a b → f a = none)
    (relayed : SublistForall₂ R out (b :: source)) :
    ∃ rest, SublistForall₂ R rest source ∧ rest.filterMap f = out.filterMap f := by
  cases relayed with
  | nil => exact ⟨[], .nil, rfl⟩
  | cons related relayed => exact ⟨_, relayed, (List.filterMap_cons_none (silent _ related)).symm⟩
  | cons_right relayed => exact ⟨out, relayed, rfl⟩

theorem with_mem (relayed : SublistForall₂ R out source) :
    SublistForall₂ (fun a b => b ∈ source ∧ R a b) out source := by
  obtain ⟨kept, related, part⟩ := List.sublistForall₂_iff.mp relayed
  have members := (List.forall₂_and_left kept out).mpr ⟨fun b member => part.subset member, related.flip⟩
  exact List.sublistForall₂_iff.mpr ⟨kept, members.flip, part⟩

theorem sublist_of_eq {out source : List α} (relayed : SublistForall₂ (fun a b => a = b) out source) :
    out <+ source := by
  obtain ⟨kept, related, part⟩ := List.sublistForall₂_iff.mp relayed
  rw [List.forall₂_eq_eq_eq] at related
  exact related ▸ part

end Relay

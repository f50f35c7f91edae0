import HaskellHighlight.File.Registry
import Mathlib.Data.List.Induction

/-! Requests to a registry one after another, and what it holds after them. Extensions and languages
are kept under different rules: the first binding of an extension stays, and of the languages with
one id that of the latest new binding counts. -/
namespace HaskellHighlight

/-- A request to bind an extension to a file type: the one that the type goes by, or another. -/
inductive Registration where
  | usual (type : FileType)
  | further (extension : String) (type : FileType)
  deriving DecidableEq, Repr

namespace Registration

def type : Registration → FileType
  | usual type => type
  | further _ type => type

def extension : Registration → String
  | usual type => type.extension
  | further extension _ => extension

def key (request : Registration) : String := Registry.normalize request.extension

end Registration

abbrev Answer := Except RegistryError Unit

namespace Registry

def attempt (registry : Registry) : Registration → Except RegistryError Registry
  | .usual type => registry.register type
  | .further extension type => registry.registerExtension extension type

def perform (registry : Registry) (request : Registration) : Registry × Answer :=
  match registry.attempt request with
  | .ok next => (next, .ok ())
  | .error error => (registry, .error error)

def run (registry : Registry) (requests : List Registration) : Registry :=
  requests.foldl (fun registry request => (registry.perform request).1) registry

def history (registry : Registry) : List Registration → List (Registration × Answer)
  | [] => []
  | request :: later =>
    (request, (registry.perform request).2) :: history (registry.perform request).1 later

end Registry

/-- The request at a place of a history made a binding: it succeeded, and no request before it had
succeeded for its extension. -/
def Creates (history : List (Registration × Answer)) (place : Nat) (request : Registration) :
    Prop :=
  history[place]? = some (request, .ok ()) ∧
    ∀ i < place, ∀ earlier, history[i]? = some (earlier, .ok ()) → earlier.key ≠ request.key

section creation
variable {history : List (Registration × Answer)} {request : Registration} {answer : Answer}

/-- Where a request succeeded for an extension, one before it or itself created the binding. -/
theorem exists_creates {i : Nat} (success : history[i]? = some (request, .ok ())) :
    ∃ place creator, Creates history place creator ∧ creator.key = request.key := by
  induction i using Nat.strongRecOn generalizing request with
  | ind i ih =>
    by_cases repeated : ∃ j < i, ∃ earlier, history[j]? = some (earlier, .ok ()) ∧
        earlier.key = request.key
    · obtain ⟨j, before, earlier, success, same⟩ := repeated
      obtain ⟨place, creator, creates, key⟩ := ih j before success
      exact ⟨place, creator, creates, key.trans same⟩
    · exact ⟨i, request, ⟨success, fun j before earlier success same =>
        repeated ⟨j, before, earlier, success, same⟩⟩, rfl⟩

/-- A further request leaves the creations before it as they are, and is one itself if it succeeds
as the first for its extension. -/
theorem creates_append_iff {place : Nat} {creator : Registration} :
    Creates (history ++ [(request, answer)]) place creator ↔
      Creates history place creator ∨
        place = history.length ∧ creator = request ∧ answer = .ok () ∧
          ∀ (i : Nat) (earlier : Registration), history[i]? = some (earlier, .ok ()) →
            earlier.key ≠ request.key := by
  have inside {i : Nat} (h : i < history.length) :
      (history ++ [(request, answer)])[i]? = history[i]? := List.getElem?_append_left h
  rcases Nat.lt_trichotomy place history.length with before | rfl | beyond
  · have earlier_iff : (∀ i < place, ∀ earlier : Registration,
          (history ++ [(request, answer)])[i]? = some (earlier, .ok ()) →
            earlier.key ≠ creator.key) ↔
        ∀ i < place, ∀ earlier : Registration, history[i]? = some (earlier, .ok ()) →
          earlier.key ≠ creator.key := by
      refine forall₂_congr fun i lt => ?_
      rw [inside (Nat.lt_trans lt before)]
    simp only [Creates, inside before, earlier_iff, Nat.ne_of_lt before, false_and, or_false]
  · have outside : history[history.length]? = none := List.getElem?_eq_none (Nat.le_refl _)
    have last : (history ++ [(request, answer)])[history.length]? = some (request, answer) :=
      List.getElem?_concat_length
    simp only [Creates, last, outside, Option.some.injEq, Prod.mk.injEq, reduceCtorEq, false_and,
      false_or, true_and]
    constructor
    · rintro ⟨⟨rfl, rfl⟩, first⟩
      refine ⟨rfl, rfl, fun i earlier success => first i ?_ earlier ?_⟩
      · exact (List.getElem?_eq_some_iff.mp success).1
      · rwa [inside (List.getElem?_eq_some_iff.mp success).1]
    · rintro ⟨rfl, rfl, first⟩
      refine ⟨⟨rfl, rfl⟩, fun i lt earlier success => first i earlier ?_⟩
      rwa [inside lt] at success
  · have outside : history[place]? = none := List.getElem?_eq_none (Nat.le_of_lt beyond)
    have none_there : (history ++ [(request, answer)])[place]? = none := by
      apply List.getElem?_eq_none
      rw [List.length_append, List.length_singleton]
      exact beyond
    simp only [Creates, outside, none_there, Nat.ne_of_gt beyond, reduceCtorEq, false_and,
      false_or]

end creation

namespace Registry
variable {registry : Registry} {request : Registration} {requests later : List Registration}

theorem attempt_eq (registry : Registry) (request : Registration) :
    registry.attempt request = registry.registerExtension request.extension request.type := by
  cases request <;> rfl

/-- All that a request can do: it fails for want of an extension, it fails because the extension
belongs to another file type, it repeats a binding, or it makes a new one. -/
theorem perform_cases (registry : Registry) (request : Registration) :
    (request.key = "" ∧ registry.perform request = (registry, .error .emptyExtension)) ∨
    (request.key ≠ "" ∧ ∃ existing, registry.fileTypes.get? request.key = some existing ∧
      existing ≠ request.type ∧ registry.perform request =
        (registry, .error (.extensionTaken request.key existing.name))) ∨
    (request.key ≠ "" ∧ registry.fileTypes.get? request.key = some request.type ∧
      registry.perform request = (registry, .ok ())) ∨
    (request.key ≠ "" ∧ registry.fileTypes.get? request.key = none ∧
      registry.perform request = (registry.bind request.key request.type, .ok ())) := by
  have named : normalize request.extension = request.key := rfl
  rw [perform, attempt_eq, registerExtension, named]
  by_cases empty : request.key = ""
  · exact Or.inl ⟨empty, by simp only [if_pos empty]⟩
  cases bound : registry.fileTypes.get? request.key with
  | none => exact Or.inr (Or.inr (Or.inr ⟨empty, rfl, by simp only [if_neg empty]⟩))
  | some existing =>
    by_cases same : existing = request.type
    · refine Or.inr (Or.inr (Or.inl ⟨empty, by rw [same], ?_⟩))
      simp only [if_neg empty, if_pos same]
    · refine Or.inr (Or.inl ⟨empty, existing, rfl, same, ?_⟩)
      simp only [if_neg empty, if_neg same]

theorem run_append (registry : Registry) (requests later : List Registration) :
    registry.run (requests ++ later) = (registry.run requests).run later := List.foldl_append

theorem run_concat (registry : Registry) (requests : List Registration) (request : Registration) :
    registry.run (requests ++ [request]) = ((registry.run requests).perform request).1 :=
  run_append registry requests [request]

theorem history_append (registry : Registry) (requests later : List Registration) :
    registry.history (requests ++ later) =
      registry.history requests ++ (registry.run requests).history later := by
  induction requests generalizing registry with
  | nil => rfl
  | cons request requests ih =>
    rw [List.cons_append, history, ih, history, List.cons_append]
    rfl

theorem get?_bind (registry : Registry) (extension other : String) (type : FileType) :
    (registry.bind extension type).fileTypes.get? other =
      if other = extension then some type else registry.fileTypes.get? other :=
  NameMap.get?_insert _ _ _ _

theorem language?_bind (registry : Registry) (extension id : String) (type : FileType) :
    (registry.bind extension type).language? id =
      if id = type.language.id then some type.language else registry.language? id :=
  NameMap.get?_insert _ _ _ _

/-- What a registry holds after a history of requests. A file type is bound to an extension where a
request for both created a binding, and the language of an id is that of the latest creation for a
file type whose language has the id. -/
structure Records (registry : Registry) (history : List (Registration × Answer)) : Prop where
  bound_iff : ∀ extension type, registry.fileTypes.get? extension = some type ↔
    ∃ place creator, Creates history place creator ∧ creator.key = extension ∧
      creator.type = type
  language_iff : ∀ id language, registry.language? id = some language ↔
    ∃ place creator, Creates history place creator ∧ creator.type.language.id = id ∧
      creator.type.language = language ∧
      ∀ after latter, place < after → Creates history after latter →
        latter.type.language.id ≠ id
  resolves : ∀ extension type, registry.fileTypes.get? extension = some type →
    (registry.language? type.language.id).isSome
  named : registry.fileTypes.get? "" = none

namespace Records
variable {history : List (Registration × Answer)}

theorem empty : Records .empty [] where
  bound_iff extension type := by simp [Creates, Registry.empty]
  language_iff id language := by simp [Creates, Registry.empty, language?]
  resolves extension type bound := by simp [Registry.empty] at bound
  named := rfl

private theorem unchanged (h : Records registry history) {answer : Answer}
    (idle : ∀ place creator, Creates (history ++ [(request, answer)]) place creator ↔
      Creates history place creator) : Records registry (history ++ [(request, answer)]) where
  bound_iff := by simpa only [idle] using h.bound_iff
  language_iff := by simpa only [idle] using h.language_iff
  resolves := h.resolves
  named := h.named

private theorem created (h : Records registry history) (nonempty : request.key ≠ "")
    (free : registry.fileTypes.get? request.key = none) :
    Records (registry.bind request.key request.type) (history ++ [(request, .ok ())]) := by
  have first (i : Nat) (earlier : Registration) (success : history[i]? = some (earlier, .ok ())) :
      earlier.key ≠ request.key := by
    intro same
    obtain ⟨place, creator, creates, key⟩ := exists_creates success
    have bound := (h.bound_iff request.key creator.type).mpr
      ⟨place, creator, creates, key.trans same, rfl⟩
    rw [free] at bound
    contradiction
  have creates_iff (place : Nat) (creator : Registration) :
      Creates (history ++ [(request, .ok ())]) place creator ↔
        Creates history place creator ∨ place = history.length ∧ creator = request := by
    rw [creates_append_iff]
    exact or_congr_right ⟨fun h => ⟨h.1, h.2.1⟩, fun h => ⟨h.1, h.2, rfl, first⟩⟩
  have before {place : Nat} {creator : Registration} (creates : Creates history place creator) :
      place < history.length := (List.getElem?_eq_some_iff.mp creates.1).1
  refine ⟨fun extension type => ?_, fun id language => ?_, fun extension type bound => ?_, ?_⟩
  · rw [get?_bind]
    simp only [creates_iff]
    split
    · rename_i same
      subst same
      constructor
      · rintro ⟨⟩
        exact ⟨_, request, Or.inr ⟨rfl, rfl⟩, rfl, rfl⟩
      · rintro ⟨place, creator, creates | ⟨-, rfl⟩, key, rfl⟩
        · exact absurd key (first place creator creates.1)
        · rfl
    · rename_i other
      rw [h.bound_iff]
      constructor
      · rintro ⟨place, creator, creates, bound⟩
        exact ⟨place, creator, Or.inl creates, bound⟩
      · rintro ⟨place, creator, creates | ⟨-, rfl⟩, key, type⟩
        · exact ⟨place, creator, creates, key, type⟩
        · exact absurd key.symm other
  · rw [language?_bind]
    simp only [creates_iff]
    split
    · rename_i same
      subst same
      constructor
      · rintro ⟨⟩
        refine ⟨_, request, Or.inr ⟨rfl, rfl⟩, rfl, rfl, ?_⟩
        rintro after latter beyond (creates | ⟨rfl, -⟩)
        · exact absurd (before creates) (Nat.not_lt.mpr (Nat.le_of_lt beyond))
        · exact absurd beyond (Nat.lt_irrefl _)
      · rintro ⟨place, creator, creates | ⟨-, rfl⟩, id, rfl, latest⟩
        · exact absurd rfl (latest history.length request (before creates) (Or.inr ⟨rfl, rfl⟩))
        · rfl
    · rename_i other
      rw [h.language_iff]
      constructor
      · rintro ⟨place, creator, creates, id, language, latest⟩
        refine ⟨place, creator, Or.inl creates, id, language, ?_⟩
        rintro after latter beyond (creates | ⟨-, rfl⟩)
        · exact latest after latter beyond creates
        · exact fun same => other same.symm
      · rintro ⟨place, creator, creates | ⟨-, rfl⟩, id, language, latest⟩
        · exact ⟨place, creator, creates, id, language, fun after latter beyond creates =>
            latest after latter beyond (Or.inl creates)⟩
        · exact absurd id.symm other
  · rw [language?_bind]
    split
    · rfl
    · rename_i other
      rw [get?_bind] at bound
      split at bound
      · cases bound
        exact absurd rfl other
      · exact h.resolves extension type bound
  · rw [get?_bind, if_neg (Ne.symm nonempty)]
    exact h.named

/-- The step lemma: a request and its answer keep the record right. -/
theorem perform (h : Records registry history) (request : Registration) :
    Records (registry.perform request).1
      (history ++ [(request, (registry.perform request).2)]) := by
  have failed {error : RegistryError} (place : Nat) (creator : Registration) :
      Creates (history ++ [(request, .error error)]) place creator ↔
        Creates history place creator := by
    rw [creates_append_iff]
    simp
  rcases perform_cases registry request with ⟨-, eq⟩ | ⟨-, existing, -, -, eq⟩ | ⟨-, bound, eq⟩ |
    ⟨nonempty, free, eq⟩
  · rw [eq]
    exact h.unchanged failed
  · rw [eq]
    exact h.unchanged failed
  · rw [eq]
    refine h.unchanged fun place creator => ?_
    rw [creates_append_iff]
    refine or_iff_left ?_
    rintro ⟨-, -, -, first⟩
    obtain ⟨i, earlier, creates, key, -⟩ := (h.bound_iff _ _).mp bound
    exact first i earlier creates.1 key
  · rw [eq]
    exact h.created nonempty free

/-- The run lemma: what a registry holds after any requests is what its history says. -/
theorem run (requests : List Registration) :
    Records (Registry.empty.run requests) (Registry.empty.history requests) := by
  induction requests using List.reverseRecOn with
  | nil => exact .empty
  | append_singleton requests request ih =>
    rw [run_concat, history_append]
    exact ih.perform request

end Records

end Registry

end HaskellHighlight

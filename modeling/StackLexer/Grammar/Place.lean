import StackLexer.Grammar.Rule

/-! Where the lists of a rule set are written.
A list is a named state's, or it is pushed by an entry of another list. Its place says which, so
two lists with the same entries in different places are told apart. -/

namespace StackLexer

def Rule.listAt? (rules : List Rule) : List Nat → Option (List Rule)
  | [] => some rules
  | index :: path =>
    match (rules[index]?).bind Rule.pushed? with
    | some entries => Rule.listAt? entries path
    | none => none

mutual

def Rule.pushPaths (index : Nat) : Rule → List (List Nat)
  | { push := some (.rules entries), .. } =>
    [index] :: (Rule.pushPathsFrom 0 entries).map (index :: ·)
  | _ => []

def Rule.pushPathsFrom (index : Nat) : List Rule → List (List Nat)
  | [] => []
  | rule :: rest => rule.pushPaths index ++ Rule.pushPathsFrom (index + 1) rest

end

namespace RuleSet

def listAt? (set : RuleSet) (p : Place) : Option (List Rule) :=
  (set.get? p.state).bind (fun rules => Rule.listAt? rules p.path)

/-- The places of all lists that are pushed, in the order in which they are written. -/
def pushPlaces (set : RuleSet) : List Place :=
  set.states.entries.flatMap (fun (name, rules) =>
    (Rule.pushPathsFrom 0 rules).map (fun path => ⟨name, path⟩))

end RuleSet

/-- What tells pushed lists apart: their places, unless they are empty and have no room. -/
inductive PushKey where
  | emptyList
  | list (place : Place)
  deriving DecidableEq, Repr, Inhabited

def RuleSet.keyAt (set : RuleSet) (place : Place) : PushKey :=
  match place.path, set.listAt? place with
  | _ :: _, some [] => if place ∈ set.reserved then .list place else .emptyList
  | _, _ => .list place

theorem Rule.pushPaths_of_pushed {rule : Rule} {entries : List Rule}
    (h : rule.pushed? = some entries) (index : Nat) :
    rule.pushPaths index = [index] :: (Rule.pushPathsFrom 0 entries).map (index :: ·) := by
  obtain ⟨_, _, _, push, _, _, _, _⟩ := rule
  simp only [Rule.pushed?] at h
  split at h <;> simp_all [Rule.pushPaths]

theorem Rule.mem_pushPathsFrom {rules : List Rule} {rule : Rule} {index i : Nat} {path : List Nat}
    (at_ : rules[i]? = some rule) (h : path ∈ rule.pushPaths (index + i)) :
    path ∈ Rule.pushPathsFrom index rules := by
  induction rules generalizing index i with
  | nil => simp at at_
  | cons head rest ih =>
    simp only [Rule.pushPathsFrom, List.mem_append]
    cases i with
    | zero =>
      simp only [List.getElem?_cons_zero, Option.some.injEq] at at_
      exact .inl (at_ ▸ h)
    | succ i =>
      refine .inr (ih (i := i) (by simpa using at_) ?_)
      rwa [Nat.add_right_comm, Nat.add_assoc]

theorem Rule.mem_pushPathsFrom_of_listAt? {rules entries : List Rule} {i : Nat} {path : List Nat}
    (h : Rule.listAt? rules (i :: path) = some entries) :
    i :: path ∈ Rule.pushPathsFrom 0 rules := by
  induction path generalizing rules i with
  | nil =>
    simp only [Rule.listAt?] at h
    cases at_ : rules[i]? with
    | none => simp [at_] at h
    | some rule =>
      cases pushed : rule.pushed? with
      | none => simp [at_, pushed] at h
      | some found =>
        exact Rule.mem_pushPathsFrom at_ (by simp [Rule.pushPaths_of_pushed pushed])
  | cons j path ih =>
    unfold Rule.listAt? at h
    cases at_ : rules[i]? with
    | none => simp [at_] at h
    | some rule =>
      cases pushed : rule.pushed? with
      | none => simp [at_, pushed] at h
      | some found =>
        simp only [at_, Option.bind_some, pushed] at h
        have inside := ih h
        exact Rule.mem_pushPathsFrom at_ (by simp [Rule.pushPaths_of_pushed pushed, inside])

theorem Rule.listAt?_append {rules entries : List Rule} {path more : List Nat}
    (h : Rule.listAt? rules path = some entries) :
    Rule.listAt? rules (path ++ more) = Rule.listAt? entries more := by
  induction path generalizing rules with
  | nil =>
    simp only [Rule.listAt?, Option.some.injEq] at h
    simp [h]
  | cons i path ih =>
    simp only [List.cons_append, Rule.listAt?] at h ⊢
    cases pushed : (rules[i]?).bind Rule.pushed? with
    | none => simp [pushed] at h
    | some found =>
      simp only [pushed] at h
      exact ih h

namespace RuleSet

theorem listAt?_push {set : RuleSet} {p : Place} {rules entries : List Rule} {rule : Rule}
    {index : Nat} (h : set.listAt? p = some rules) (at_ : rules[index]? = some rule)
    (pushed : rule.pushed? = some entries) : set.listAt? (p.push index) = some entries := by
  unfold listAt? at h ⊢
  simp only [Place.push]
  cases state : set.get? p.state with
  | none => simp [state] at h
  | some list =>
    simp only [state, Option.bind_some] at h
    simp [Rule.listAt?_append h, Rule.listAt?, at_, pushed]

theorem mem_pushPlaces {set : RuleSet} {p : Place} {entries : List Rule} {index : Nat}
    (h : set.listAt? (p.push index) = some entries) : p.push index ∈ set.pushPlaces := by
  unfold listAt? at h
  cases state : set.get? (p.push index).state with
  | none => simp [state] at h
  | some rules =>
    simp only [state, Option.bind_some] at h
    obtain ⟨i, path, same⟩ : ∃ i path, (p.push index).path = i :: path := by
      cases e : (p.push index).path with
      | nil => simp [Place.push] at e
      | cons i path => exact ⟨i, path, rfl⟩
    rw [same] at h
    have inside := Rule.mem_pushPathsFrom_of_listAt? h
    refine List.mem_flatMap.2 ⟨((p.push index).state, rules), ?_, ?_⟩
    · obtain ⟨before, after, eq, _⟩ := List.lookup_eq_some_iff.1 state
      simp [eq]
    · exact List.mem_map.2 ⟨_, inside, by rw [← same]⟩

end RuleSet

end StackLexer

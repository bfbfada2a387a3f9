import ScopedAccess.Proofs.Implication
import ScopedAccess.Proofs.ResolvedModel

namespace ScopedAccess

namespace Snapshot

variable {d : Declarations} {version : Nat} {s : Snapshot} {t action name : String}

def Compiled (s : Snapshot) : Prop := ∃ d, Snapshot.compile d s.version = .ok s

theorem graphOf_roles {m : Model} {graph : ImplicationGraph} (made : graphOf m = .ok graph) : graph.roles = m.roles := by
  unfold graphOf at made
  split at made
  · rename_i built admitted
    cases made
    exact ImplicationGraph.roles_of_ofRoles admitted
  · cases made
  · cases made

theorem compile_eq_ok (compiled : Snapshot.compile d version = .ok s) :
    s.version = version ∧ Model.ofDeclarations d = .ok s.model ∧
      (∃ graph : ImplicationGraph, graph.roles = s.model.roles ∧
        s.relevant = graph.permissionIndex s.model.permissions.toList) ∧
      s.walk = AncestorWalk.stepsOf s.model.links.values ∧ s.tables = s.model.resources.map .ofResource := by
  simp only [Snapshot.compile, bind_eq_ok_iff, mapError_eq_ok_iff] at compiled
  obtain ⟨model, resolved, graph, made, compiled⟩ := compiled
  cases compiled
  exact ⟨rfl, resolved, ⟨graph, graphOf_roles made, rfl⟩, rfl, rfl⟩

theorem compile_version (compiled : Snapshot.compile d version = .ok s) (other : Nat) :
    Snapshot.compile d other = .ok { s with version := other } := by
  simp only [Snapshot.compile, bind_eq_ok_iff, mapError_eq_ok_iff] at compiled ⊢
  obtain ⟨model, resolved, graph, made, compiled⟩ := compiled
  cases compiled
  exact ⟨model, resolved, graph, made, rfl⟩

theorem compiled_of_compile (compiled : Snapshot.compile d version = .ok s) : s.Compiled :=
  ⟨d, (compile_eq_ok compiled).1 ▸ compiled⟩

theorem Compiled.reflects (compiled : s.Compiled) : ∃ d, s.model.Reflects d := by
  obtain ⟨d, compiled⟩ := compiled
  exact ⟨d, Model.reflects (compile_eq_ok compiled).2.1⟩

theorem Compiled.resolved (compiled : s.Compiled) : s.model.Resolved := by
  obtain ⟨d, reflects⟩ := compiled.reflects
  exact reflects.resolved

theorem Compiled.walk_eq (compiled : s.Compiled) : s.walk = AncestorWalk.stepsOf s.model.links.values := by
  obtain ⟨d, compiled⟩ := compiled
  exact (compile_eq_ok compiled).2.2.2.1

theorem Compiled.find?_tables (compiled : s.Compiled) :
    s.tables.find? t = (s.model.resources.find? t).map .ofResource := by
  obtain ⟨d, compiled⟩ := compiled
  rw [(compile_eq_ok compiled).2.2.2.2, OrderedMap.find?_map]

theorem Compiled.table_of_resource (compiled : s.Compiled) {resource : Resource}
    (place : s.model.resources.find? t = some resource) : s.tables.find? t = some (.ofResource resource) := by
  rw [compiled.find?_tables, place]
  rfl

theorem targetName {m : Model} (resolved : m.Resolved) {resource : Resource} (place : m.resources.find? t = some resource) :
    (FilterTarget.ofResource resource).resourceType = t := resolved.resourceName t resource place

theorem Compiled.relevant_confers_iff (compiled : s.Compiled) :
    (∃ roles, s.relevantRoles? t action = some roles ∧ name ∈ roles) ↔
      ImplicationGraph.Confers s.model.roles name ⟨t, action⟩ := by
  have closed := compiled.resolved
  obtain ⟨d, compiled⟩ := compiled
  obtain ⟨_, _, ⟨graph, sameRoles, index⟩, _, _⟩ := compile_eq_ok compiled
  rw [relevantRoles?, index, ImplicationGraph.permissionIndex, OrderedMap.find?_ofList_graph]
  constructor
  · intro given
    obtain ⟨roles, found, member⟩ := given
    split at found
    · cases found
      exact sameRoles ▸ (ImplicationGraph.mem_relevantRoles_iff graph).mp member
    · cases found
  · intro confers
    have ⟨granter, _, role, place, granted⟩ := confers
    have known : (⟨t, action⟩ : Permission) ∈ s.model.permissions.toList := closed.granted granter role _ place granted
    rw [if_pos known]
    exact ⟨_, rfl, (ImplicationGraph.mem_relevantRoles_iff graph).mpr (sameRoles ▸ confers)⟩

-- No entry, or an empty one.
def Idle (s : Snapshot) (t action : String) : Prop := ∀ roles, s.relevantRoles? t action = some roles → roles.toList = []

theorem Compiled.not_confers (compiled : s.Compiled) (idle : s.Idle t action) :
    ¬ ImplicationGraph.Confers s.model.roles name ⟨t, action⟩ := by
  intro confers
  obtain ⟨roles, found, member⟩ := compiled.relevant_confers_iff.mpr confers
  rw [← OrderedSet.mem_toList, idle roles found] at member
  cases member

end Snapshot

end ScopedAccess

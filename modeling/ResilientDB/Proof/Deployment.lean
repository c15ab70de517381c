import ResilientDB.Proof.ServerRun

namespace ResilientDB.Proof
open Model Library

variable {cluster : Cluster} {i : Int} {d d' : Deployment} {event : Int × ServerEvent}
  {trace : List (Transition Deployment (Int × ServerEvent))}

def localStep (i : Int) (t : Transition Deployment (Int × ServerEvent)) : Option (Transition Server ServerEvent) :=
  if t.event.1 = i then some ⟨t.before.server i, t.event.2, t.after.server i⟩ else none

def localTrace (i : Int) (trace : List (Transition Deployment (Int × ServerEvent))) :
    List (Transition Server ServerEvent) := trace.filterMap (localStep i)

theorem mem_localTrace {t : Transition Server ServerEvent} (member : t ∈ localTrace i trace) :
    ∃ u ∈ trace, u.event.1 = i ∧ t = ⟨u.before.server i, u.event.2, u.after.server i⟩ := by
  obtain ⟨u, inside, same⟩ := List.mem_filterMap.mp member
  unfold localStep at same
  split at same
  · rename_i here
    cases same
    exact ⟨u, inside, here, rfl⟩
  · cases same

theorem deployment_local (run : (deployment cluster).Run trace d) (honest : cluster.honest i) :
    (server (cluster.configOf i)).Run (localTrace i trace) (d.server i) := by
  induction run with
  | initial first => exact .initial (first.1 i honest)
  | @next trace d d' event earlier step ih =>
    obtain ⟨-, s, ran, rfl⟩ := step
    unfold localTrace
    by_cases here : event.1 = i
    · subst here
      simp only [List.filterMap_cons, localStep, ↓reduceIte, Deployment.setServer, Function.update_self]
      exact ih.next ran
    · simp only [List.filterMap_cons, localStep, here, ↓reduceIte, Deployment.setServer,
        Function.update_of_ne (Ne.symm here)]
      exact ih

theorem deploymentAct_sound (cluster : Cluster) (d : Deployment) (event : Int × ServerEvent) (d' : Deployment)
    (moved : deploymentAct cluster d event = some d') : (deployment cluster).step d event d' := by
  unfold deploymentAct at moved
  split at moved
  · rename_i honest
    obtain ⟨s, acted, rfl⟩ := Option.map_eq_some_iff.mp moved
    exact ⟨honest, s, serverAct_sound (cluster.configOf event.1) _ _ _ acted, rfl⟩
  · cases moved

def startDeployment (cluster : Cluster) : Deployment where
  server i := { replica := Replica.create (cluster.configOf i) }

theorem startDeployment_initial (cluster : Cluster) : (deployment cluster).initial (startDeployment cluster) :=
  ⟨fun _ _ => ⟨false, true, false, rfl⟩, rfl⟩

def hearFrom (i : Int) (env : Env) (signer : Int) (request : Request) : Int × ServerEvent :=
  let env : Env := { env with codec := { env.codec with
    parseMessage := fun buff => some ⟨buff, some ⟨signer, "signature"⟩⟩, parseRequest := fun _ => some request } }
  (i, .process (fun _ => env) "message")

end ResilientDB.Proof

import NearCache.Proofs.Client.Accounting

/-!
Operations that overlap. Callers may open caches, destroy them and shut the client down all at a
time without leaving a listener behind, and renew listeners meanwhile, if each cache is in the
directory and set up for as long as its listener is renewed. Else the listener that a renewal asks for
may be granted to a cache that has been granted another meanwhile, or has been torn down, and then
nobody removes it any more.
-/

namespace NearCache

/-- However callers overlap, registrations and bindings are in the end those of the subscriptions
that caches in the directory hold, one for each, and a client that was shut down has none and no
worker, as long as listeners are renewed only of caches in the directory that are set up, of none by
two callers at a time, and no worker is started for them once a shutdown has emptied the directory. -/
theorem listeners_follow_caches (configs : ConfigCatalog) (coherence : CoherenceConfig)
    {cluster : Cluster} (hRegistrations : cluster.registrations = ∅)
    (hBindings : cluster.bindings = ∅) (hFair : cluster.faults.Fair) (calls : List Traffic.Call)
    (hApart : ∀ step ∈ Traffic.steps (.start configs coherence cluster) calls, step.1.RenewsApart)
    (hQuiet : (Traffic.run (.start configs coherence cluster) calls).Quiet) :
    let t := Traffic.run (.start configs coherence cluster) calls
    t.client.Accounted ∧
      (∀ (r r' : RegistrationId) (id : CacheId), t.client.cluster.bindings[r]? = some id →
        t.client.cluster.bindings[r']? = some id → r = r') ∧
      (t.ShutDown → t.client.Dismantled) := by
  obtain ⟨plans, h⟩ := upheld_of_run configs coherence hRegistrations hBindings hFair calls hApart
  have hAccounted := h.accounted hQuiet
  exact ⟨hAccounted, fun r r' id => hAccounted.binding_unique, h.dismantled hQuiet⟩

/-- All listeners are renewed while one cache is open and the cluster takes its time over the listener
of another. The first is asked for meanwhile, and destroyed when the renewal has come to the second. -/
def Traffic.renewedAmongOthers : List Traffic.Call :=
  .begin (.getOrCreate "orders") :: List.replicate 9 (.advance 0) ++
  .change ⟨#[.create (Cluster.localAddress 0)], ⟨4, 2, 0⟩, false, some 100⟩ ::
    .begin (.getOrCreate "users") :: List.replicate 3 (.advance 1) ++
  .begin .resubscribeAll :: List.replicate 5 (.advance 2) ++
  .begin (.getOrCreate "orders") :: List.replicate 3 (.advance 3) ++
  .wait 100 :: List.replicate 7 (.advance 1) ++ List.replicate 6 (.advance 2) ++
  .begin (.destroy "orders") :: List.replicate 6 (.advance 4) ++
  .wait 100 :: List.replicate 3 (.advance 2)

/-- Both caches got two listeners each, one of them by the renewal. Only the later one of the cache that
was not destroyed is left. -/
theorem listeners_follow_caches_renewed :
    let start := Traffic.start (.ofList [.ofName "orders", .ofName "users"]) .default (.ofSize 1)
    let t := start.run Traffic.renewedAmongOthers
    t.Quiet ∧ t.client.Accounted ∧ t.client.cluster.addedCount "orders" = 2 ∧
      t.client.cluster.addedCount "users" = 2 ∧
      t.client.cluster.registrations.toList = [("reg-4", "users")] := by
  intro start t
  have hQuiet : t.Quiet := by decide +kernel
  have hApart : ∀ step ∈ start.steps Traffic.renewedAmongOthers, step.1.RenewsApart := by
    decide +kernel
  obtain ⟨hAccounted, -, -⟩ :=
    listeners_follow_caches _ _ rfl rfl ⟨rfl, rfl, rfl⟩ Traffic.renewedAmongOthers hApart hQuiet
  exact ⟨hQuiet, hAccounted, by decide +kernel, by decide +kernel, by decide +kernel⟩

/-- All listeners are renewed while the cluster takes its time over one, and its cache is destroyed
when both have come back. -/
def Traffic.renewedWhileOpened : List Traffic.Call :=
  .change ⟨#[.create (Cluster.localAddress 0)], ⟨4, 2, 0⟩, false, some 100⟩ ::
    .begin (.getOrCreate "orders") :: List.replicate 3 (.advance 0) ++
  .begin .resubscribeAll :: List.replicate 4 (.advance 1) ++
  .wait 100 :: List.replicate 7 (.advance 0) ++ List.replicate 5 (.advance 1) ++
  .begin (.destroy "orders") :: List.replicate 6 (.advance 2)

/-- A cache that is granted two listeners at a time gives only the later one back. The other is
still registered, and bound to the cache, when the cache has been destroyed and the directory is
empty. -/
theorem listener_outlives_cache :
    let t := Traffic.run (.start (.ofList [.ofName "orders"]) .default (.ofSize 1))
      Traffic.renewedWhileOpened
    t.Quiet ∧ t.client.directory.toList = [] ∧
      t.client.cluster.registrations.toList = [("reg-1", "orders")] ∧
      t.client.cluster.bindings.toList = [("reg-1", 0)] := by
  decide

end NearCache

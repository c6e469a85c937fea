import WatchDispatch.Proofs.Cluster.Operations

/-!
# The stream of a subscription

What a subscription tells is a function of what the server says to it. It is neither shortened nor
prolonged nor put in another order by the points at which responses end.
-/

namespace WatchDispatch.Cluster

open Watch (Item)

/-- In every run of operations, and whatever replies the server has left meanwhile: a subscription
tells the events of all its responses one after the other up to the first trouble, and then that
trouble once; after that it has ended, and neither tells nor asks anything. Whoever reads on is told
all of it. Two subscriptions to which the server says the same tell the same, wherever their
responses were cut. -/
theorem stream_exact (a : Api) (server : Server) (run : List Operation) :
    let w := (Wire.start server).after a run
    (∀ id, items id w.log <+: told a.decoder (said id w.log)) ∧
    (∀ id f, .fault f ∈ items id w.log → items id w.log = told a.decoder (said id w.log) ∧
      ∀ later, let after := (Wire.start server).after a (later ++ run)
        items id after.log = items id w.log ∧ exchanges id after.log = exchanges id w.log ∧
          ∀ h, h.id = id → (a.wire.next h after).1 = .ended) ∧
    (∀ scope h x, ⟨.subscribe scope (.granted h), x⟩ ∈ w.log →
      (∀ g, .abandon g ∈ run → g.id ≠ h.id) →
      ∃ n, ((Wire.start server).after a (List.replicate n (.next h) ++ run)).ReadOut a h.id) ∧
    ∀ server' run' id id', let w' := (Wire.start server').after a run'
      said id w.log = said id' w'.log →
        (items id w.log <+: items id' w'.log ∨ items id' w'.log <+: items id w.log) ∧
        (w.ReadOut a id → w'.ReadOut a id' → items id w.log = items id' w'.log) := by
  intro w
  have started := Wire.sound_start a server
  obtain ⟨sound, whole⟩ := started.1.after started.2 run
  refine ⟨sound.told, ?_, ?_, ?_⟩
  · intro id f mem
    obtain ⟨all, silent⟩ := sound.silent_of_fault whole mem
    refine ⟨all, fun later => ?_⟩
    rw [Wire.after_append]
    exact silent later
  · intro scope h x granted kept
    have follows := Wire.follows_after granted kept
    obtain ⟨c, found⟩ := follows
    obtain ⟨n, out⟩ := sound.reads_out (whole h.id c found) ⟨c, found⟩
    refine ⟨n, ?_⟩
    rw [Wire.after_append]
    exact out
  · intro server' run' id id' w' same
    have started' := Wire.sound_start a server'
    obtain ⟨sound', -⟩ := started'.1.after started'.2 run'
    have begins := sound.told id
    have begins' := sound'.told id'
    rw [← same] at begins'
    refine ⟨List.prefix_or_prefix_of_prefix begins begins', ?_⟩
    rintro ⟨all, -⟩ ⟨all', -⟩
    rw [all, all', same]

end WatchDispatch.Cluster

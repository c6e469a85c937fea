import WatchDispatch.Controller.Form
import WatchDispatch.Main
import WatchDispatch.Settings.Form
import WatchDispatch.Watch.Feeds
import WatchDispatch.Resource.Form
import WatchDispatch.Proofs.Dispatch.Policy
import WatchDispatch.Proofs.Dispatch.Redelivery
import WatchDispatch.Proofs.Dispatch.ToldStreams
import WatchDispatch.Proofs.Watch.Undisturbed
import WatchDispatch.Proofs.Cluster.Stream
import WatchDispatch.Proofs.Cluster.ResumePoint
import WatchDispatch.Proofs.Cluster.Refusal
import WatchDispatch.Proofs.Dispatch.Independence
import WatchDispatch.Proofs.Dispatch.Starting
import WatchDispatch.Proofs.Watch.Waiting
import WatchDispatch.Proofs.Controller.Installs
import WatchDispatch.Proofs.Dispatch.Contents
import WatchDispatch.Proofs.Dispatch.Isolation
import WatchDispatch.Proofs.Watch.LifeCycle
import WatchDispatch.Proofs.Watch.FeedsAtScope
import WatchDispatch.Proofs.Watch.StepsAtScope
import WatchDispatch.Proofs.Watch.PoolsAtScope
import WatchDispatch.Proofs.Watch.DeedsAtScope
import WatchDispatch.Proofs.Controller.Forms
import WatchDispatch.Proofs.Json.Parsing
import WatchDispatch.Proofs.Cluster.Fidelity
import WatchDispatch.Proofs.Daemon.Endings
import WatchDispatch.Proofs.Cluster.Profiles
import WatchDispatch.Proofs.Dispatch.Maxima
import WatchDispatch.Proofs.Cluster.Resolution
import WatchDispatch.Proofs.Cluster.Separation
import WatchDispatch.Proofs.Cluster.Keys
import WatchDispatch.Proofs.Scope.Targets
import WatchDispatch.Proofs.Dispatch.Agreement
import WatchDispatch.Proofs.Watch.Verdicts
import WatchDispatch.Proofs.Resource.UidKeys
import WatchDispatch.Proofs.Controller.Names
import WatchDispatch.Proofs.Controller.Drafts
import WatchDispatch.Proofs.Daemon.FirstCome
import WatchDispatch.Proofs.Daemon.Timeouts

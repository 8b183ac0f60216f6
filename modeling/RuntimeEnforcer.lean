import RuntimeEnforcer.Proof.NestedTracking
import RuntimeEnforcer.Proof.Hierarchies
import RuntimeEnforcer.Proof.Replacing
import RuntimeEnforcer.Proof.TaskRoot
import RuntimeEnforcer.Proof.Padding
import RuntimeEnforcer.Proof.Leaks
import RuntimeEnforcer.Proof.Consistent
import RuntimeEnforcer.Proof.Delete
import RuntimeEnforcer.Proof.Transient
import RuntimeEnforcer.Proof.PushedOut
import RuntimeEnforcer.Proof.Premature
import RuntimeEnforcer.Proof.NodeOrder
import RuntimeEnforcer.Proof.Since
import RuntimeEnforcer.Proof.Conservation
import RuntimeEnforcer.Proof.FirstObserved
import RuntimeEnforcer.Proof.PodWorkload
import RuntimeEnforcer.Proof.Promotable
import RuntimeEnforcer.Proof.OpenFile
import RuntimeEnforcer.Proof.ShowProtection
import RuntimeEnforcer.Proof.Classify
import RuntimeEnforcer.Proof.AckKeys
import RuntimeEnforcer.Proof.RecordAccounts
import RuntimeEnforcer.Proof.Synchronizes
import RuntimeEnforcer.Proof.Elfutil
import RuntimeEnforcer.Proof.DraftCheck
import RuntimeEnforcer.Proof.LearnedAllowed
import RuntimeEnforcer.Proof.PodViews

import RuntimeTypes.Program
import RuntimeTypes.Store.Records
import RuntimeTypes.Store.Shared
import RuntimeTypes.Gate.Scene
import RuntimeTypes.OptionsFile
import RuntimeTypes.Proofs.Table.Moves
import RuntimeTypes.Proofs.Table.Sound
import RuntimeTypes.Proofs.Chronicle
import RuntimeTypes.Proofs.CommonAncestor
import RuntimeTypes.Proofs.Subtyping
import RuntimeTypes.Proofs.Arrays.Covariance
import RuntimeTypes.Proofs.Arrays.Transitivity
import RuntimeTypes.Proofs.Session.Moves
import RuntimeTypes.Proofs.Session.Cache
import RuntimeTypes.Proofs.Arrays.Checks
import RuntimeTypes.Proofs.Capacity.Alike
import RuntimeTypes.Proofs.Capacity.Operations
import RuntimeTypes.Proofs.Verification
import RuntimeTypes.Proofs.Capacity.Answers
import RuntimeTypes.Proofs.Arrays.Following
import RuntimeTypes.Proofs.Arrays.Removal
import RuntimeTypes.Proofs.Session.Failures
import RuntimeTypes.Proofs.Gate.Exclusion
import RuntimeTypes.Proofs.Immutability
import RuntimeTypes.Proofs.Acyclicity
import RuntimeTypes.Proofs.Gate.Sections
import RuntimeTypes.Proofs.Gate.Sleepers
import RuntimeTypes.Proofs.Gate.Shutdown
import RuntimeTypes.Proofs.Session.Untorn
import RuntimeTypes.Proofs.Table.Names
import RuntimeTypes.Proofs.Session.NameIndex
import RuntimeTypes.Proofs.Session.Scopes
import RuntimeTypes.Proofs.Session.Limits
import RuntimeTypes.Proofs.Arrays.Nesting
import RuntimeTypes.Proofs.Arrays.Twins
import RuntimeTypes.Proofs.Arrays.Renaming
import RuntimeTypes.Proofs.Arrays.Commutation
import RuntimeTypes.Proofs.Session.Rules
import RuntimeTypes.Proofs.Session.Ancestors
import RuntimeTypes.Proofs.Session.Placeholders
import RuntimeTypes.Proofs.Session.Counters
import RuntimeTypes.Proofs.Session.Arguments
import RuntimeTypes.Proofs.Session.Circles
import RuntimeTypes.Proofs.Table.Search
import RuntimeTypes.Proofs.Arrays.Chains
import RuntimeTypes.Proofs.Displays
import RuntimeTypes.Proofs.Subclassing
import RuntimeTypes.Proofs.Arrays.Interfaces
import RuntimeTypes.Proofs.Arrays.Refusals
import RuntimeTypes.Proofs.Table.Declaring
import RuntimeTypes.Proofs.Table.Delegation
import RuntimeTypes.Proofs.Finding
import RuntimeTypes.Proofs.Kinds
import RuntimeTypes.Proofs.ClassFile
import RuntimeTypes.Proofs.RecordChecks
import RuntimeTypes.Proofs.Session.Interning
import RuntimeTypes.Proofs.Options.Waiting
import RuntimeTypes.Proofs.Options.RoundTrip
import RuntimeTypes.Proofs.Arrays.Spelling
import RuntimeTypes.Proofs.Arrays.Recursion
import RuntimeTypes.Proofs.Session.Bounds

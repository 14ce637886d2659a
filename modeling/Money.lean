import Money.Theorems.Alerts
import Money.Theorems.Artifacts
import Money.Theorems.Challenges
import Money.Theorems.Checkout
import Money.Theorems.Cio
import Money.Theorems.Discovery
import Money.Theorems.Erasure
import Money.Theorems.FirstPass
import Money.Theorems.History
import Money.Theorems.Independence
import Money.Theorems.MeteredCircuit
import Money.Theorems.Network
import Money.Theorems.Objective
import Money.Theorems.OutcomeEvaluation
import Money.Theorems.Ownership
import Money.Theorems.ProviderCache
import Money.Theorems.Queue
import Money.Theorems.RateLimits
import Money.Theorems.Reconciliation
import Money.Theorems.ReferenceTables
import Money.Theorems.Registry
import Money.Theorems.Sanitizer
import Money.Theorems.Seats
import Money.Theorems.Sessions
import Money.Theorems.StaticBudgets
import Money.Theorems.Study
import Money.Theorems.Timestamps
import Money.Theorems.Tokens
import Money.Theorems.Training
import Money.Theorems.UniverseEthics
import Money.Theorems.UniverseMembers
import Money.Theorems.UniverseProgress

import StatePool.Event.Traffic
import StatePool.Hook
import StatePool.Session
import StatePool.Status
import StatePool.Proofs.System
import StatePool.Proofs.Policy
import StatePool.Proofs.Sections
import StatePool.Proofs.Books
import StatePool.Proofs.Phases
import StatePool.Proofs.Actions
import StatePool.Proofs.Sound
import StatePool.Proofs.Bookkeeping
import StatePool.Proofs.Drain
import StatePool.Proofs.Lifetime
import StatePool.Proofs.Chronicle
import StatePool.Proofs.Restart
import StatePool.Proofs.Stations
import StatePool.Proofs.Living
import StatePool.Proofs.Slots
import StatePool.Proofs.Effects
import StatePool.Proofs.Meanwhile
import StatePool.Proofs.Conduct
import StatePool.Proofs.Requests
import StatePool.Proofs.Trips
import StatePool.Proofs.Forest
import StatePool.Proofs.Births
import StatePool.Proofs.Dealings
import StatePool.Proofs.Budget
import StatePool.Proofs.Lives
import StatePool.Proofs.Felling
import StatePool.Proofs.Annals
import StatePool.Proofs.Tables
import StatePool.Proofs.Histories
import StatePool.Proofs.Kinship
import StatePool.Proofs.Upkeep
import StatePool.Proofs.Lineage
import StatePool.Proofs.Numerals
import StatePool.Proofs.Grammar
import StatePool.Proofs.Layout
import StatePool.Proofs.Truncation
import StatePool.Proofs.NormalForm
import StatePool.Proofs.RoundTrip
import StatePool.Proofs.Undisturbed
import StatePool.Proofs.Rollback
import StatePool.Proofs.Capacity
import StatePool.Proofs.Checkout
import StatePool.Proofs.Inheritance
import StatePool.Proofs.Returns
import StatePool.Proofs.Ageing
import StatePool.Proofs.Deadlines
import StatePool.Proofs.Verdicts
import StatePool.Proofs.Spelling
import StatePool.Proofs.Sequels
import StatePool.Proofs.Drops
import StatePool.Proofs.Broadcast
import StatePool.Proofs.Swaps
import StatePool.Proofs.Outfits

import OrderDesk.Http.Api
import OrderDesk.Wire.Catalog
import OrderDesk.Desk.Rehearsal
import OrderDesk.Settings
import OrderDesk.Proofs.Desk.LostUpdate
import OrderDesk.Proofs.Desk.OnlyWriter
import OrderDesk.Proofs.Desk.Results
import OrderDesk.Proofs.Desk.Settled
import OrderDesk.Proofs.Desk.PayOnce
import OrderDesk.Proofs.Desk.Replay
import OrderDesk.Proofs.Desk.Serial
import OrderDesk.Proofs.Desk.Serializable
import OrderDesk.Proofs.Shop.Hall
import OrderDesk.Proofs.Shop.Books
import OrderDesk.Proofs.Shop.Ledger
import OrderDesk.Proofs.Desk.StoredOrders
import OrderDesk.Proofs.Desk.OrderHistory
import OrderDesk.Proofs.Desk.LostRace
import OrderDesk.Proofs.Desk.Absence
import OrderDesk.Proofs.Shop.SingleClient
import OrderDesk.Proofs.Shop.Alone
import OrderDesk.Proofs.Http.Failures
import OrderDesk.Proofs.Desk.Tally
import OrderDesk.Proofs.Store.Chronicle
import OrderDesk.Proofs.Desk.Footprint
import OrderDesk.Proofs.Desk.Isolation
import OrderDesk.Proofs.Desk.Occasions
import OrderDesk.Proofs.Desk.Prices
import OrderDesk.Proofs.Desk.ReadYourWrites
import OrderDesk.Proofs.Desk.Causes
import OrderDesk.Proofs.Http.Faults
import OrderDesk.Proofs.Shop.NewOrders
import OrderDesk.Proofs.Shop.Dues
import OrderDesk.Proofs.Shop.Deadline
import OrderDesk.Proofs.Http.Routes
import OrderDesk.Proofs.Wire.Order
import OrderDesk.Proofs.Wire.Part
import OrderDesk.Proofs.Money.Sums
import OrderDesk.Proofs.Catalog.Answers
import OrderDesk.Proofs.Http.ErrorBodies
import OrderDesk.Proofs.Identifier.Texts
import OrderDesk.Proofs.Identifier.Order
import OrderDesk.Proofs.Settings.Lookup
import OrderDesk.Proofs.Order.Lifecycle
import OrderDesk.Proofs.Money.Display

import Modbus.Proofs.Frame.Announced
import Modbus.Proofs.Frame.Truncation
import Modbus.Proofs.Link.Refinement
import Modbus.Proofs.Master.Independence
import Modbus.Proofs.Master.Premature
import Modbus.Proofs.Master.Raw
import Modbus.Proofs.Master.Reservation
import Modbus.Proofs.Master.Typed
import Modbus.Proofs.Pdu.Extent
import Modbus.Proofs.Register.Commuting
import Modbus.Proofs.Register.Storage
import Modbus.Proofs.Slave.Admission
import Modbus.Proofs.Slave.LifeCycle
import Modbus.Proofs.Slave.Soundness
import Modbus.Proofs.Transaction.Isolation
import Modbus.Proofs.Transaction.Reclaiming
import Modbus.Proofs.Transaction.Reuse
import Modbus.Proofs.Unit.Grammar
import Modbus.Site.Basic
import Modbus.Slave.Script
import Modbus.Transaction.Batch

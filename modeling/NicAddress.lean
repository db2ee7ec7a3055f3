import NicAddress.AdapterTable.Host
import NicAddress.AddressList.Host
import NicAddress.ArpTable.Host
import NicAddress.Device.Host
import NicAddress.Device.Kernel
import NicAddress.Mac.Grammar
import NicAddress.Mac.Integer
import NicAddress.Mac.Order
import NicAddress.Mac.Scan
import NicAddress.Probe
import NicAddress.Proofs.AdapterTable.Indexing
import NicAddress.Proofs.AddressList.Links
import NicAddress.Proofs.AddressList.Pulls
import NicAddress.Proofs.AddressList.Stability
import NicAddress.Proofs.Causes
import NicAddress.Proofs.Device.Isolation
import NicAddress.Proofs.Device.NameField
import NicAddress.Proofs.Device.Naming
import NicAddress.Proofs.Discipline
import NicAddress.Proofs.Mac.RoundTrip
import NicAddress.Request
import NicAddress.Proofs.ArpTable.Pipeline
import NicAddress.Proofs.Device.Guard
import NicAddress.Proofs.Mac.Integer
import NicAddress.Proofs.Mac.Inventory
import NicAddress.Proofs.Mac.Order
import NicAddress.Proofs.Mac.Positional
import NicAddress.Proofs.Mac.Spelling
import NicAddress.Proofs.Mac.Extension
import NicAddress.Proofs.LogLines
import NicAddress.Proofs.Mac.Flag
import NicAddress.Proofs.EntryPoints
import NicAddress.Proofs.Probe

import Pxeos.Lib.Align
import Pxeos.Lib.Checks
import Pxeos.Lib.Packing
import Pxeos.Lib.Search
import Pxeos.Lib.Text
import Pxeos.Lib.Shell
import Pxeos.Lib.Fields
import Pxeos.Lib.Interact
import Pxeos.Lib.Script
import Pxeos.Lib.Tree
import Pxeos.Lib.Memory
import Pxeos.Lib.Utf8
import Pxeos.Lib.Assign
import Pxeos.Lib.Words
import Pxeos.Lib.Queue
import Pxeos.Deploy.Schema
import Pxeos.Deploy.LbaContract
import Pxeos.Deploy.Resolver
import Pxeos.Deploy.Allocation
import Pxeos.Deploy.Joined
import Pxeos.Deploy.Geometry
import Pxeos.Deploy.Remaining
import Pxeos.Deploy.Lvm
import Pxeos.Deploy.LvmSound
import Pxeos.Deploy.Apply
import Pxeos.Deploy.Agree
import Pxeos.Deploy.Largest
import Pxeos.Deploy.Feasible
import Pxeos.Deploy.BootCode
import Pxeos.Sfdisk.Table
import Pxeos.Sfdisk.ExtendedType
import Pxeos.Sfdisk.Checks
import Pxeos.Sfdisk.FillDisk
import Pxeos.Sfdisk.Plan
import Pxeos.Sfdisk.FillRun
import Pxeos.Sfdisk.FillSizes
import Pxeos.Sfdisk.Visits
import Pxeos.Sfdisk.FillOrder
import Pxeos.Sfdisk.FillSound
import Pxeos.Sfdisk.Dump
import Pxeos.Sfdisk.Printed
import Pxeos.Sfdisk.DumpRead
import Pxeos.Sfdisk.RoundTrip
import Pxeos.Sfdisk.Verdicts
import Pxeos.Sfdisk.Actions
import Pxeos.Sfdisk.Fingerprint
import Pxeos.Sfdisk.FingerprintLines
import Pxeos.Sfdisk.FingerprintRead
import Pxeos.Sfdisk.FingerprintExact
import Pxeos.Sfdisk.Rewrite
import Pxeos.Storage.Context
import Pxeos.Storage.Calls
import Pxeos.Storage.Bound
import Pxeos.Storage.Command
import Pxeos.Storage.Session
import Pxeos.Storage.Steps
import Pxeos.Storage.Protocol
import Pxeos.Storage.Owned
import Pxeos.Storage.World
import Pxeos.Storage.Confined
import Pxeos.Storage.Guarantees
import Pxeos.Storage.Server
import Pxeos.Storage.MountInfo
import Pxeos.Storage.Relative
import Pxeos.Storage.Transfer
import Pxeos.Storage.Complete
import Pxeos.Storage.Moved
import Pxeos.Deploy.Growth
import Pxeos.Deploy.GrowthSound
import Pxeos.Fat.Grow
import Pxeos.Identity.Hive
import Pxeos.Identity.Hostname
import Pxeos.Permit.Binding
import Pxeos.Permit.Safe
import Pxeos.Capture.Publish
import Pxeos.Target.InUse
import Pxeos.Target.Unused
import Pxeos.Target.Drives
import Pxeos.Target.Pool
import Pxeos.Restore.Preflight
import Pxeos.Restore.Sound
import Pxeos.Recover.Controller
import Pxeos.Recover.Store
import Pxeos.Recover.Atomic
import Pxeos.Linux.Transaction
import Pxeos.Linux.Files
import Pxeos.Linux.Atomic
import Pxeos.Linux.Probe
import Pxeos.Linux.VolumeGroup
import Pxeos.Linux.RootSearch
import Pxeos.Linux.UniqueRoot
import Pxeos.Report.Reason
import Pxeos.Report.Events
import Pxeos.Report.Reporter
import Pxeos.Report.Fold
import Pxeos.Report.Delivered
import Pxeos.Report.Flush
import Pxeos.Report.Session
import Pxeos.Uefi.Entries
import Pxeos.Uefi.Firmware
import Pxeos.Uefi.Register
import Pxeos.Uefi.Found
import Pxeos.Uefi.Steps
import Pxeos.Uefi.Order
import Pxeos.Uefi.Quiet
import Pxeos.Uefi.Again
import Pxeos.Lib.AwkNumber
import Pxeos.Linux.Hosts
import Pxeos.Linux.HostsExact
import Pxeos.Linux.HostsRendered
import Pxeos.Lib.FileTree
import Pxeos.Lib.Forest
import Pxeos.Restore.Metadata
import Pxeos.Restore.MetadataLayout
import Pxeos.Restore.MetadataRun
import Pxeos.Restore.MetadataCount
import Pxeos.Restore.MetadataBinds
import Pxeos.CloudInit.Resolve
import Pxeos.CloudInit.Turns
import Pxeos.CloudInit.Confined
import Pxeos.CloudInit.Canonical
import Pxeos.CloudInit.Mounts
import Pxeos.CloudInit.Ledger
import Pxeos.CloudInit.Mounted
import Pxeos.CloudInit.Undone
import Pxeos.CloudInit.RootSearch
import Pxeos.CloudInit.Searched
import Pxeos.CloudInit.GroupFrame
import Pxeos.CloudInit.RootFrame
import Pxeos.CloudInit.Install
import Pxeos.Lvm.Prepare
import Pxeos.Lvm.Prepared
import Pxeos.Lvm.Published
import Pxeos.Lvm.Frame
import Pxeos.Groups.Schema
import Pxeos.Groups.Capture
import Pxeos.Groups.Directories
import Pxeos.Groups.Executor
import Pxeos.Groups.Merged
import Pxeos.Groups.Commit
import Pxeos.Groups.Marker
import Pxeos.Display.Registry
import Pxeos.Display.Region
import Pxeos.Display.Parsed
import Pxeos.Display.Export
import Pxeos.Display.Exported
import Pxeos.Display.Volumes

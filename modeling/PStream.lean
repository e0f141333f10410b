import PStream.Protocol
import PStream.Version
import PStream.Wire.Frame
import PStream.Wire.ConnectionClose
import PStream.Wire.PublicReset
import PStream.Wire.Blocked
import PStream.StopWaitingManager
import PStream.SentPacketHandler.Basic
import PStream.SentPacketHandler.Run
import PStream.SentPacketHandler.Invariant
import PStream.SentPacketHandler.Conservation
import PStream.SentPacketHandler.LargestAcked
import PStream.SentPacketHandler.StopWaiting
import PStream.SentPacketHandler.Tracked
import PStream.SentPacketHandler.Acknowledged
import PStream.SentPacketHandler.LossDetection
import PStream.SentPacketHandler.Timeouts
import PStream.SentPacketHandler.Skipped
import PStream.Packer.Basic
import PStream.Packer.Frames
import PStream.Packer.HandshakeSize
import PStream.Packer.Shape
import PStream.Packer.Size
import PStream.Scheduler.Retransmission
import PStream.Scheduler.PathSelection
import PStream.Scheduler.Allocation
import PStream.Scheduler.Assignment
import PStream.Scheduler.SendLoop
import PStream.Scheduler.Selectors
import PStream.PathManager
import PStream.PathManager.Addresses
import PStream.PathManager.Interleaving

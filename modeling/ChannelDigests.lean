import ChannelDigests.Fit
import ChannelDigests.RunReports
import ChannelDigests.Settlement
import ChannelDigests.Erasure
import ChannelDigests.Forward
import ChannelDigests.Atomicity
import ChannelDigests.Window
import ChannelDigests.Restart
import ChannelDigests.Readings
import ChannelDigests.Currency
import ChannelDigests.Registration
import ChannelDigests.Retention
import ChannelDigests.Overlap
import ChannelDigests.Availability
import ChannelDigests.Wrapping
import ChannelDigests.Publishing
import ChannelDigests.Boundary
import ChannelDigests.Building
import ChannelDigests.Sweeping
import ChannelDigests.Activation
import ChannelDigests.Picking
import ChannelDigests.ManifestOrder
import ChannelDigests.ResultReader
import ChannelDigests.FloodWaits
import ChannelDigests.Answered
import ChannelDigests.Owners
import ChannelDigests.Coverage
import ChannelDigests.Progress
import ChannelDigests.Agreement
import ChannelDigests.DisguisedTasks
import ChannelDigests.Deadlines
import ChannelDigests.Draining
import ChannelDigests.Presented
import ChannelDigests.Processes
import ChannelDigests.Constraints
